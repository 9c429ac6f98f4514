import FluentSql.Error

/-!
# Replies of readers

A reader takes what it can from the head of the characters. It may find nothing of its kind there,
so that another reader may be tried, or it may be committed and fail for good.
-/

namespace FluentSql

/-- What a reader found. -/
inductive Reply (α : Type)
  /-- A value, and the characters after it. -/
  | found (value : α) (rest : List Char)
  /-- Nothing of its kind; the characters are those where it stopped. -/
  | absent (stop : List Char)
  /-- A failure for good; the characters are those where it was noticed, and `deep` says that the
  nesting is to blame. -/
  | failed (deep : Bool) (stop : List Char)

/-- A reader of the characters. -/
abbrev Reader (α : Type) := List Char → Reply α

namespace Reply

/-- Goes on after a value. -/
def andThen {α β : Type} (r : Reply α) (next : α → List Char → Reply β) : Reply β :=
  match r with
  | found value rest => next value rest
  | absent stop => absent stop
  | failed deep stop => failed deep stop

/-- Tries another reader where there was nothing. -/
def orElse {α : Type} (r : Reply α) (other : Unit → Reply α) : Reply α :=
  match r with
  | absent _ => other ()
  | r => r

/-- Makes a missing value a failure. -/
def required {α : Type} : Reply α → Reply α
  | absent stop => failed false stop
  | r => r

/-- Changes the value. -/
def map {α β : Type} (f : α → β) (r : Reply α) : Reply β :=
  r.andThen fun value rest => found (f value) rest

/-- After a value the next reader goes on. -/
@[simp] theorem andThen_found {α β : Type} (value : α) (rest : List Char)
    (next : α → List Char → Reply β) : (found value rest).andThen next = next value rest := rfl

/-- After nothing there is nothing. -/
@[simp] theorem andThen_absent {α β : Type} (stop : List Char)
    (next : α → List Char → Reply β) : (absent stop).andThen next = absent stop := rfl

/-- A failure stays. -/
@[simp] theorem andThen_failed {α β : Type} (deep : Bool) (stop : List Char)
    (next : α → List Char → Reply β) : (failed deep stop).andThen next = failed deep stop := rfl

/-- A value is kept, and no other reader is tried. -/
@[simp] theorem orElse_found {α : Type} (value : α) (rest : List Char)
    (other : Unit → Reply α) : (found value rest).orElse other = found value rest := rfl

/-- Where there was nothing, the other reader answers. -/
@[simp] theorem orElse_absent {α : Type} (stop : List Char) (other : Unit → Reply α) :
    (absent stop).orElse other = other () := rfl

/-- After a failure no other reader is tried. -/
@[simp] theorem orElse_failed {α : Type} (deep : Bool) (stop : List Char)
    (other : Unit → Reply α) : (failed deep stop).orElse other = failed deep stop := rfl

/-- A value that has to be there is there. -/
@[simp] theorem required_found {α : Type} (value : α) (rest : List Char) :
    (found value rest).required = found value rest := rfl

/-- Nothing is a failure where a value has to be. -/
@[simp] theorem required_absent {α : Type} (stop : List Char) :
    (absent stop : Reply α).required = failed false stop := rfl

/-- A failure keeps its cause. -/
@[simp] theorem required_failed {α : Type} (deep : Bool) (stop : List Char) :
    (failed deep stop : Reply α).required = failed deep stop := rfl

/-- A value is changed where it is found. -/
@[simp] theorem map_found {α β : Type} (f : α → β) (value : α) (rest : List Char) :
    (found value rest).map f = found (f value) rest := rfl

/-- Nothing is left as it is. -/
@[simp] theorem map_absent {α β : Type} (f : α → β) (stop : List Char) :
    (absent stop).map f = absent stop := rfl

/-- A failure is left as it is. -/
@[simp] theorem map_failed {α β : Type} (f : α → β) (deep : Bool) (stop : List Char) :
    (failed deep stop).map f = failed deep stop := rfl

/-- A value comes from a first value and the reader that went on. -/
theorem andThen_eq_found {α β : Type} {r : Reply α} {next : α → List Char → Reply β} {b : β}
    {rest : List Char} :
    r.andThen next = found b rest ↔
      ∃ a between, r = found a between ∧ next a between = found b rest := by
  cases r <;> simp [and_assoc]

/-- A value comes from one of two readers, from the second only where there was nothing. -/
theorem orElse_eq_found {α : Type} {r : Reply α} {other : Unit → Reply α} {a : α}
    {rest : List Char} :
    r.orElse other = found a rest ↔
      r = found a rest ∨ ∃ stop, r = absent stop ∧ other () = found a rest := by
  cases r <;> simp

/-- Where a value has to be, a value is one that is there. -/
theorem required_eq_found {α : Type} {r : Reply α} {a : α} {rest : List Char} :
    r.required = found a rest ↔ r = found a rest := by
  cases r <;> simp

/-- A changed value comes from a value. -/
theorem map_eq_found {α β : Type} {f : α → β} {r : Reply α} {b : β} {rest : List Char} :
    r.map f = found b rest ↔ ∃ a, r = found a rest ∧ f a = b := by
  cases r with
  | found value after => simpa [and_assoc] using and_comm
  | _ => simp

end Reply

/-- Takes one given character. -/
def readChar (expected : Char) : Reader Unit
  | [] => .absent []
  | c :: cs => if c = expected then .found () cs else .absent (c :: cs)

/-- A character is taken where it stands. -/
theorem readChar_eq_found {expected : Char} {cs rest : List Char} {u : Unit} :
    readChar expected cs = .found u rest ↔ cs = expected :: rest := by
  cases cs with
  | nil => simp [readChar]
  | cons c cs =>
    by_cases hc : c = expected <;> simp [readChar, hc]

/-- Takes values as long as there are any; `bound` is at least their number. -/
def readMany {α : Type} (item : Reader α) : Nat → Reader (List α)
  | 0, cs => .found [] cs
  | bound + 1, cs =>
    match item cs with
    | .found value rest => (readMany item bound rest).map (value :: ·)
    | .absent _ => .found [] cs
    | .failed deep stop => .failed deep stop

/-- What holds of no values, and stays true with one more value in front, holds of all values that
are taken. -/
theorem readMany_induction {α : Type} {item : Reader α}
    {P : List α → List Char → List Char → Prop} (hdone : ∀ cs, P [] cs cs)
    (hnext : ∀ {value values cs between rest}, item cs = .found value between →
      P values between rest → P (value :: values) cs rest)
    {bound : Nat} {cs rest : List Char} {values : List α}
    (h : readMany item bound cs = .found values rest) : P values cs rest := by
  induction bound generalizing cs values with
  | zero =>
    obtain ⟨rfl, rfl⟩ := Reply.found.inj h
    exact hdone cs
  | succ bound ih =>
    rw [readMany] at h
    split at h
    · next value between hvalue =>
      obtain ⟨more, hmore, rfl⟩ := Reply.map_eq_found.mp h
      exact hnext hvalue (ih hmore)
    · obtain ⟨rfl, rfl⟩ := Reply.found.inj h
      exact hdone cs
    · cases h

end FluentSql
