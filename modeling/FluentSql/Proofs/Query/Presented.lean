import FluentSql.Proofs.Query.RoundTrip
import FluentSql.Proofs.Script.Trim

/-!
# Texts of queries

A text presents a query if it is accepted for the query or is its script, also one that nests too
deep to be accepted. Such texts that differ in their blank margins alone present queries with the
same SQL.
-/

namespace FluentSql

open Script

/-- A text without blank margins is left as it is. -/
theorem Text.trim_eq_self {s : String} (hfirst : ∀ c ∈ s.toList.head?, isBlank c = false)
    (hlast : Trimmed s.toList) : trim s = s := by
  have hdrop : s.toList.dropWhile isBlank = s.toList := by
    cases hs : s.toList with
    | nil => rfl
    | cons c cs =>
      rw [hs] at hfirst
      rw [List.dropWhile_cons_of_neg (by simp [hfirst c rfl])]
  have hrdrop : s.toList.rdropWhile isBlank = s.toList := by
    rw [List.rdropWhile_eq_self_iff]
    intro hne
    rw [hlast _ (List.getLast_mem_getLast? hne)]
    exact Bool.false_ne_true
  rw [List.rdropWhile] at hrdrop
  rw [trim, hdrop, hrdrop, String.ofList_toList]

namespace Query

/-! ### Margins of scripts -/

/-- The calls that build a query end with a parenthesis. -/
theorem exists_calls_eq_append (margin : String) (q : Query) (before : List String) :
    ∃ front, (q.calls margin before).1.toList = front ++ [')'] := by
  cases q with
  | sourceless => exact ⟨"XQL.select(".toList, by simp [calls]⟩
  | table name => exact ⟨("XQL.from(" ++ Text.quoted name).toList, by simp [calls, tableScript]⟩
  | subquery inner => exact ⟨_, by simp only [calls, String.toList_append]; rfl⟩
  | step prior next =>
    by_cases hstart : ∃ columns, prior = sourceless ∧ next = .select columns
    · obtain ⟨columns, rfl, rfl⟩ := hstart
      exact ⟨_, by simp only [calls, String.toList_append]; rfl⟩
    · rw [calls_step hstart, Step.toScript.eq_def]
      exact ⟨_, by simp only [String.toList_append, ← List.append_assoc]; rfl⟩
  | join prior other on kind => exact ⟨_, by simp only [calls, String.toList_append]; rfl⟩

/-- Written bindings do not start with a blank, nor does what follows them. -/
theorem head?_writesBindings {bindings : List Binding} {depth : Nat} {cs rest : List Char}
    (h : WritesBindings bindings depth cs) (hrest : ∀ c ∈ rest.head?, Text.isBlank c = false) :
    ∀ c ∈ (cs ++ rest).head?, Text.isBlank c = false := by
  cases h with
  | nil => exact hrest
  | cons h =>
    cases h with
    | mk hword =>
      rcases hword with rfl | rfl
      · rintro c ⟨⟩
        rfl
      · rintro c ⟨⟩
        rfl

/-- The script of a query has no blank margins. -/
theorem trim_toScript {q : Query} (hcounts : ∀ count ∈ q.pruned.counts, IsScriptCount count)
    (indent : Nat) : Text.trim (q.toScript indent) = q.toScript indent := by
  let margin := String.ofList (List.replicate indent ' ')
  have hspells := spells_calls (blank_margin indent) hcounts .nil
  have htoList := toList_intercalate_statements (q.pruned.calls margin []).2
    (q.pruned.calls margin []).1
  apply Text.trim_eq_self
  · obtain ⟨rest, hrest⟩ := exists_calls_eq margin q.pruned []
    rw [toScript, htoList, hrest]
    refine head?_writesBindings (writesBindings hspells.bindings) ?_
    rintro c ⟨⟩
    rfl
  · obtain ⟨front, hfront⟩ := exists_calls_eq_append margin q.pruned []
    rw [toScript, htoList, hfront]
    intro c hc
    rw [← List.append_assoc, List.getLast?_concat] at hc
    cases hc
    rfl

/-! ### Texts that present queries -/

/-- The text is accepted for the query, or it is the script of the query. -/
structure Presents (text : String) (q : Query) : Prop where
  /-- Builder calls make the query, and a script can write its numbers of rows. -/
  expressible : q.Expressible
  /-- The text stands for the query or is written for it. -/
  text_eq : ofScript text = .ok q ∨ ∃ indent, text = q.toScript indent

/-- An accepted text is accepted for the same query without its blank margins. -/
theorem ofScript_trim {text : String} {q : Query} (h : ofScript text = .ok q) :
    ofScript (Text.trim text) = .ok q := by
  obtain ⟨script, hscript, hrun⟩ := Except.bind_eq_ok.mp h
  exact Except.bind_eq_ok.mpr ⟨script, ofText_trim hscript, hrun⟩

/-- Queries with the same script have the same SQL, also if the script nests too deep. -/
theorem statement_eq_of_toScript {p q : Query} (hp : p.Expressible) (hq : q.Expressible)
    {indent indent' : Nat} (h : p.toScript indent = q.toScript indent') :
    p.statement = q.statement := by
  have hpcounts := hp.inRange
  have hqcounts := hq.inRange
  rw [← counts_prunedIn p p] at hpcounts
  rw [← counts_prunedIn q q] at hqcounts
  have hpscript := writesScript_toScript hpcounts indent
  rw [h] at hpscript
  have htree : p.tree = q.tree := hpscript.inj (writesScript_toScript hqcounts indent')
  have hprun := hp.built.wellFormed.run_tree hpcounts
  rw [htree, hq.built.wellFormed.run_tree hqcounts] at hprun
  rw [← statement_pruned p, ← statement_pruned q, Except.ok.inj hprun]

/-- A query whose script is accepted has the SQL of the query that the script stands for. -/
theorem statement_eq_of_ofScript {p q : Query} (hp : p.Expressible) {indent : Nat}
    (h : ofScript (p.toScript indent) = .ok q) : p.statement = q.statement := by
  obtain ⟨hshallow, hdeep⟩ := hp.built.wellFormed.ofScript_eq hp.inRange indent
  by_cases hdepth : p.tree.depth ≤ maxDepth
  · rw [hshallow hdepth] at h
    rw [← statement_pruned p, Except.ok.inj h]
  · obtain ⟨position, herror⟩ := hdeep (Nat.lt_of_not_le hdepth)
    rw [herror] at h
    cases h

/-- Texts that differ in their blank margins alone present queries with the same SQL. -/
theorem Presents.statement_eq {text text' : String} {p q : Query} (hp : Presents text p)
    (hq : Presents text' q) (htrim : Text.trim text = Text.trim text') :
    p.statement = q.statement := by
  have htoScript {r : Query} (hr : r.Expressible) (indent : Nat) :
      Text.trim (r.toScript indent) = r.toScript indent := by
    refine trim_toScript ?_ indent
    rw [pruned, counts_prunedIn]
    exact hr.inRange
  rcases hp.text_eq with haccepted | ⟨indent, rfl⟩
  · have haccepted := ofScript_trim haccepted
    rw [htrim] at haccepted
    rcases hq.text_eq with haccepted' | ⟨indent', rfl⟩
    · have haccepted' := ofScript_trim haccepted'
      rw [haccepted] at haccepted'
      rw [Except.ok.inj haccepted']
    · rw [htoScript hq.expressible] at haccepted
      exact (statement_eq_of_ofScript hq.expressible haccepted).symm
  · rw [htoScript hp.expressible] at htrim
    rcases hq.text_eq with haccepted' | ⟨indent', rfl⟩
    · have haccepted' := ofScript_trim haccepted'
      rw [← htrim] at haccepted'
      exact statement_eq_of_ofScript hp.expressible haccepted'
    · rw [htoScript hq.expressible] at htrim
      exact statement_eq_of_toScript hp.expressible hq.expressible htrim

end Query

end FluentSql
