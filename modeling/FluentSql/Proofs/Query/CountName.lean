import FluentSql.Query.Builder
import Mathlib.Algebra.Group.Nat.Defs
import Mathlib.Data.Finset.Card
import Mathlib.Order.Bounds.Defs

/-!
# The name of the counts

The column of the counts is called `count`. If a counted column is known by that name, the name is
doubled until none is. A doubled name is longer than the one before, so of the names that the
columns are known by each stands in the way of one doubling at most; after no more doublings than
there are such names, the name is free.
-/

namespace FluentSql

namespace Query

/-! ### Doubling -/

/-- A name is doubled as long as it is one of the names, without a limit on the tries. After so many
doublings it is `result`. -/
inductive Doubles (names : List String) : String → Nat → String → Prop
  | free {name : String} (h : name ∉ names) : Doubles names name 0 name
  | taken {doublings : Nat} {name result : String} (h : name ∈ names)
      (hrest : Doubles names (name ++ "_" ++ name) doublings result) :
      Doubles names name (doublings + 1) result

/-- The name that the doubling ends with is none of the names. -/
theorem Doubles.notMem {names : List String} {doublings : Nat} {name result : String}
    (h : Doubles names name doublings result) : result ∉ names := by
  induction h with
  | free h => exact h
  | taken _ _ ih => exact ih

/-- With a try for each doubling, the same name is found. -/
theorem Doubles.freshName_eq {names : List String} {doublings : Nat} {name result : String}
    (h : Doubles names name doublings result) {tries : Nat} (htries : doublings ≤ tries) :
    freshName names tries name = result := by
  induction h generalizing tries with
  | free h =>
    cases tries with
    | zero => rfl
    | succ tries => exact if_neg fun hmem => h (List.contains_iff_mem.mp hmem)
  | taken h _ ih =>
    cases tries with
    | zero => cases htries
    | succ tries =>
      rw [freshName, if_pos (List.contains_iff_mem.mpr h)]
      exact ih (Nat.le_of_succ_le_succ htries)

/-! ### The end of the doubling -/

/-- The names that a name and its doublings have yet to be compared with: those that are not
shorter. -/
def rivals (names : List String) (name : String) : Finset String :=
  names.toFinset.filter (name.length ≤ ·.length)

/-- A name that is taken is a rival of itself. -/
theorem mem_rivals_self {names : List String} {name : String} (h : name ∈ names) :
    name ∈ rivals names name :=
  Finset.mem_filter.mpr ⟨List.mem_toFinset.mpr h, Nat.le_refl _⟩

/-- The doubling of a name that is taken has fewer rivals. -/
theorem rivals_double_ssubset {names : List String} {name : String} (h : name ∈ names) :
    rivals names (name ++ "_" ++ name) ⊂ rivals names name := by
  have hlonger : name.length < (name ++ "_" ++ name).length := by
    rw [String.length_append, String.length_append]
    exact Nat.lt_add_right _ (Nat.lt_add_one _)
  have hsubset : rivals names (name ++ "_" ++ name) ⊆ rivals names name :=
    Finset.monotone_filter_right _ fun _ _ => hlonger.le.trans
  refine (Finset.ssubset_iff_of_subset hsubset).mpr ⟨name, mem_rivals_self h, ?_⟩
  exact fun hmem => absurd (Finset.mem_filter.mp hmem).2 (Nat.not_le_of_lt hlonger)

/-- The doubling ends, after no more doublings than the name has rivals. -/
theorem exists_doubles (names : List String) (name : String) :
    ∃ doublings ≤ (rivals names name).card, ∃ result, Doubles names name doublings result := by
  by_cases htaken : name ∈ names
  · have hfewer := Finset.card_lt_card (rivals_double_ssubset htaken)
    obtain ⟨doublings, hle, result, hrest⟩ := exists_doubles names (name ++ "_" ++ name)
    exact ⟨doublings + 1, Nat.succ_le_of_lt (hle.trans_lt hfewer), result, .taken htaken hrest⟩
  · exact ⟨0, Nat.zero_le _, name, .free htaken⟩
termination_by (rivals names name).card

/-- The name of the counts is `count`, doubled as long as a column is known by it, and that is at
most once for each name that a column is known by. -/
theorem exists_doubles_countName (columns : List Expr) :
    ∃ doublings ≤ (knownNames columns).toFinset.card,
      Doubles (knownNames columns) "count" doublings (countName columns) := by
  obtain ⟨doublings, hrivals, result, hdoubles⟩ := exists_doubles (knownNames columns) "count"
  have hle := hrivals.trans (Finset.card_filter_le _ _)
  have hname : countName columns = result :=
    hdoubles.freshName_eq (hle.trans (List.toFinset_card_le _))
  exact ⟨doublings, hle, hname ▸ hdoubles⟩

/-- None of the columns is known by the name of the counts. -/
theorem countName_fresh {columns : List Expr} {e : Expr} (h : e ∈ columns) :
    e ≠ .column (countName columns) ∧ e.givenName? ≠ some (countName columns) := by
  obtain ⟨_, -, hdoubles⟩ := exists_doubles_countName columns
  have hfresh := hdoubles.notMem
  constructor
  · rintro rfl
    exact hfresh (List.mem_filterMap.mpr ⟨_, h, rfl⟩)
  · intro hname
    refine hfresh (List.mem_filterMap.mpr ⟨e, h, ?_⟩)
    split
    · cases hname
    · exact hname

/-! ### The names on the way -/

/-- The word `count`, doubled so many times. -/
def countCandidate (doublings : Nat) : String :=
  "_".intercalate (List.replicate (2 ^ doublings) "count")

/-- One more doubling. -/
theorem countCandidate_succ (doublings : Nat) : countCandidate (doublings + 1) =
    countCandidate doublings ++ "_" ++ countCandidate doublings := by
  have hfilled : List.replicate (2 ^ doublings) "count" ≠ [] := by simp
  rw [countCandidate, pow_succ, Nat.mul_two, List.replicate_add,
    String.intercalate_append_of_ne_nil hfilled hfilled, countCandidate]

/-- From a candidate on, the doubling passes the candidates that are taken, and ends with the first
one that is not. -/
theorem Doubles.eq_countCandidate {names : List String} {first doublings : Nat} {result : String}
    (h : Doubles names (countCandidate first) doublings result) :
    result = countCandidate (first + doublings) ∧
      ∀ i, first ≤ i → i < first + doublings → countCandidate i ∈ names := by
  -- Each doubling leads from one candidate to the next, so the first one has to vary.
  generalize hname : countCandidate first = name at h
  induction h generalizing first with
  | free h => exact ⟨hname.symm, fun i hle hlt => absurd hlt (Nat.not_lt.mpr hle)⟩
  | @taken doublings name result h _ ih =>
    have hnext : countCandidate (first + 1) = name ++ "_" ++ name := by
      rw [countCandidate_succ, hname]
    have hsum : first + 1 + doublings = first + (doublings + 1) := Nat.add_right_comm _ _ _
    obtain ⟨hresult, hpassed⟩ := ih hnext
    rw [hsum] at hresult hpassed
    refine ⟨hresult, fun i hle hlt => ?_⟩
    rcases hle.eq_or_lt with rfl | hlater
    · rwa [hname]
    · exact hpassed i hlater hlt

/-- The name of the counts is doubled as long as a column is known by it, and no more often than
there are different names that the columns are known by. It is the word `count`, `2 ^ j` times with
an underscore between each two, for the least `j` where no column is known by that name. -/
theorem countName_isLeast (columns : List Expr) :
    let names := knownNames columns
    ∃ j ≤ names.toFinset.card,
      Doubles names "count" j (countName columns) ∧ countName columns = countCandidate j ∧
        IsLeast {i | countCandidate i ∉ names} j := by
  intro names
  obtain ⟨j, hle, hdoubles⟩ := exists_doubles_countName columns
  have hstart : Doubles names (countCandidate 0) j (countName columns) := hdoubles
  obtain ⟨hname, hpassed⟩ := hstart.eq_countCandidate
  rw [Nat.zero_add] at hname hpassed
  refine ⟨j, hle, hdoubles, hname, ?_, fun i hfree => ?_⟩
  · exact fun htaken => hdoubles.notMem (hname ▸ htaken)
  · by_contra hbefore
    exact hfree (hpassed i (Nat.zero_le i) (Nat.lt_of_not_le hbefore))

/-- Two names that are in the way cost two doublings. -/
example : countName [.column "count_count", .named (.column "a") "count"] =
    "count_count_count_count" := by
  decide

end Query

end FluentSql
