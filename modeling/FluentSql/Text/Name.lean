/-!
# Names

A bare name is an ASCII letter or an underscore, followed by ASCII letters, digits and underscores.
SQL writes any other name in double quotes, with a quote inside written twice.
-/

namespace FluentSql.Text

/-- A bare name may begin with the character. -/
def isNameStart (c : Char) : Bool :=
  c.isAlpha || c == '_'

/-- A bare name may go on with the character. -/
def isNameChar (c : Char) : Bool :=
  c.isAlphanum || c == '_'

/-- The characters form a bare name. -/
def isBareName : List Char → Bool
  | [] => false
  | c :: cs => isNameStart c && cs.all isNameChar

/-- A name may go on with what it may start with. -/
theorem isNameChar_of_isNameStart {c : Char} (h : isNameStart c = true) :
    isNameChar c = true := by
  simp only [isNameStart, Bool.or_eq_true] at h
  rcases h with h | h <;> simp [isNameChar, Char.isAlphanum, h]

/-- A character of a name is an ASCII character, from the digits on. -/
theorem toNat_of_isNameChar {c : Char} (h : isNameChar c = true) :
    48 ≤ c.toNat ∧ c.toNat < 128 := by
  rcases (Bool.or_eq_true _ _).mp h with halphanum | hunderscore
  · rcases (Bool.or_eq_true _ _).mp halphanum with halpha | hdigit
    · rcases (Bool.or_eq_true _ _).mp halpha with hupper | hlower
      · have hletter : 65 ≤ c.toNat ∧ c.toNat ≤ 90 :=
          ⟨(of_decide_eq_true hupper).1, (of_decide_eq_true hupper).2⟩
        omega
      · have hletter : 97 ≤ c.toNat ∧ c.toNat ≤ 122 :=
          ⟨of_decide_eq_true ((Bool.and_eq_true _ _).mp hlower).1,
            of_decide_eq_true ((Bool.and_eq_true _ _).mp hlower).2⟩
        omega
    · have hbounds : 48 ≤ c.toNat ∧ c.toNat ≤ 57 := Char.isDigit_iff_toNat.mp hdigit
      omega
  · rw [eq_of_beq hunderscore]
    decide

/-- A name does not start with a digit. -/
theorem isDigit_of_isNameStart {c : Char} (h : isNameStart c = true) : c.isDigit = false := by
  rw [Bool.eq_false_iff]
  intro hdigit
  have hnine : c.toNat ≤ 57 := (Char.isDigit_iff_toNat.mp hdigit).2
  rw [isNameStart, Bool.or_eq_true] at h
  rcases h with halpha | hunderscore
  · rcases (Bool.or_eq_true _ _).mp halpha with hupper | hlower
    · have hletter : 65 ≤ c.toNat := (of_decide_eq_true hupper).1
      omega
    · have hletter : 97 ≤ c.toNat :=
        of_decide_eq_true ((Bool.and_eq_true _ _).mp hlower).1
      omega
  · rw [eq_of_beq hunderscore] at hnine
    exact absurd hnine (by decide)

/-- A digit does not start a name. -/
theorem isNameStart_of_isDigit {c : Char} (h : c.isDigit = true) : isNameStart c = false := by
  rw [Bool.eq_false_iff]
  intro hstart
  rw [isDigit_of_isNameStart hstart] at h
  cases h

/-- A bare name starts as names do and goes on as they do. -/
theorem exists_of_isBareName {name : List Char} (h : isBareName name = true) :
    ∃ c tail, name = c :: tail ∧ isNameStart c = true ∧
      ∀ d ∈ tail, isNameChar d = true := by
  cases name with
  | nil => cases h
  | cons c tail =>
    simp only [isBareName, Bool.and_eq_true, List.all_eq_true] at h
    exact ⟨c, tail, rfl, h.1, h.2⟩

/-- A run of characters of one sort ends where a character is not of that sort. -/
theorem run_append {sort : Char → Bool} {run rest : List Char} (hrun : ∀ c ∈ run, sort c = true)
    (hrest : ∀ c ∈ rest.head?, sort c = false) :
    (run ++ rest).takeWhile sort = run ∧ (run ++ rest).dropWhile sort = rest := by
  rw [List.takeWhile_append_of_pos hrun, List.dropWhile_append_of_pos hrun]
  cases rest with
  | nil => simp
  | cons c cs => simp [hrest c rfl]

/-- Every `mark` in the characters is written twice. -/
def doubled (mark : Char) (cs : List Char) : List Char :=
  cs.flatMap fun c => if c = mark then [mark, mark] else [c]

/-- The text between two marks, with the marks inside it written twice. -/
def enclosed (mark : Char) (s : String) : String :=
  String.ofList (mark :: doubled mark s.toList ++ [mark])

/-- A name as SQL writes it: a bare name and the wildcard `*` stand as they are. -/
def sqlName (name : String) : String :=
  if name = "*" ∨ isBareName name.toList then name else enclosed '"' name

end FluentSql.Text
