import FluentSql.Proofs.Query.Expressible
import FluentSql.Script.Eval

/-!
# Queries that scripts compute

A script can only compute what builder calls make, and its numbers of rows come from integers of
the script. So every query that a script stands for is expressible.
-/

namespace FluentSql

/-- A value that is a query is an expressible one. -/
def Value.Sound (v : Value) : Prop :=
  ∀ q, v = .query q → q.Expressible

namespace Script

variable {name : String} {arguments : List Value} {v : Value} {q r : Query}

/-- The only argument is one of the arguments. -/
theorem mem_of_single (h : single name arguments = .ok v) : v ∈ arguments := by
  unfold single at h
  split at h
  · obtain rfl := Except.ok.inj h
    exact List.mem_singleton_self _
  · cases h

/-- A value to read from gives an expressible query. -/
theorem toSource_expressible (hv : v.Sound) (h : v.toSource name = .ok q) : q.Expressible := by
  cases v with
  | string table =>
    obtain rfl := Except.ok.inj h
    exact .table table
  | query inner =>
    obtain rfl := Except.ok.inj h
    have hinner := hv inner rfl
    exact ⟨.subquery hinner.built, hinner.inRange⟩
  | _ => cases h

/-- A value to join with gives an expressible query. -/
theorem toPartner_expressible (hv : v.Sound) (h : v.toPartner name = .ok q) : q.Expressible := by
  cases v with
  | string table =>
    obtain rfl := Except.ok.inj h
    exact .table table
  | query other =>
    obtain rfl := Except.ok.inj h
    exact hv other rfl
  | _ => cases h

/-- A number of rows that a script gives is in the range of its integers. -/
theorem toCount_inRange {count : UInt64} (h : v.toCount name = .ok count) :
    IsScriptCount count := by
  cases v with
  | integer i =>
    simp only [Value.toCount] at h
    split at h
    · next hsign =>
      obtain rfl := Except.ok.inj h
      have hlt := i.toInt_lt
      have hmax : Int64.maxValue.toInt = 2 ^ 63 - 1 := by decide
      have hsize : UInt64.size = 2 ^ 64 := rfl
      rw [IsScriptCount, hmax, UInt64.toNat_ofNat_of_lt' (by omega)]
      omega
    · cases h
  | _ => cases h

/-- A join that succeeds joins the query that its first argument stands for. -/
theorem callJoin_eq_ok (h : callJoin q name arguments = .ok r) :
    ∃ v ∈ arguments, ∃ other on kind,
      v.toPartner name = .ok other ∧ r = q.joinWith other on kind := by
  unfold callJoin at h
  dsimp only at h
  split at h
  · next v on =>
    rw [pure_bind] at h
    obtain ⟨other, hother, h⟩ := Except.bind_eq_ok.mp h
    obtain ⟨condition, -, h⟩ := Except.bind_eq_ok.mp h
    exact ⟨v, by simp, other, condition, .inner, hother, (Except.ok.inj h).symm⟩
  · next v on kind =>
    rw [pure_bind] at h
    obtain ⟨other, hother, h⟩ := Except.bind_eq_ok.mp h
    obtain ⟨condition, -, h⟩ := Except.bind_eq_ok.mp h
    obtain ⟨kind, -, h⟩ := Except.bind_eq_ok.mp h
    exact ⟨v, by simp, other, condition, kind, hother, (Except.ok.inj h).symm⟩
  · cases h

/-- A join gives an expressible query. -/
theorem callJoin_expressible (hq : q.Expressible) (hargs : ∀ v ∈ arguments, v.Sound)
    (h : callJoin q name arguments = .ok r) : r.Expressible := by
  obtain ⟨v, hv, other, on, kind, hpartner, rfl⟩ := callJoin_eq_ok h
  have hother := toPartner_expressible (hargs v hv) hpartner
  refine ⟨hq.built.joinWith hother.built on kind, ?_⟩
  simp only [Query.joinWith, Query.counts_apply, Operation.counts, List.mem_append]
  rintro count (hcount | hcount)
  · exact hq.inRange count hcount
  · exact hother.inRange count hcount

/-- A step without a number of rows keeps the numbers of rows in range. -/
theorem inRange_apply (hq : q.Expressible) {next : Step} (hnext : next.counts = []) :
    ∀ count ∈ (q.apply (.step next)).counts, IsScriptCount count := by
  simpa [Operation.counts, hnext] using hq.inRange

/-- A step with one number of rows in range keeps the numbers of rows in range. -/
theorem inRange_apply_count (hq : q.Expressible) {next : Step} {count : UInt64}
    (hnext : next.counts = [count]) (hcount : IsScriptCount count) :
    ∀ count ∈ (q.apply (.step next)).counts, IsScriptCount count := by
  intro other hother
  rw [Query.counts_apply, Operation.counts, hnext, List.mem_append, List.mem_singleton] at hother
  rcases hother with hother | rfl
  · exact hq.inRange other hother
  · exact hcount

/-- A method of an expressible query gives an expressible query. -/
theorem callQueryMethod_expressible (hq : q.Expressible) (hargs : ∀ v ∈ arguments, v.Sound)
    (h : callQueryMethod q name arguments = .ok r) : r.Expressible := by
  unfold callQueryMethod at h
  split at h
  · obtain ⟨columns, -, h⟩ := Except.bind_eq_ok.mp h
    obtain rfl := Except.ok.inj h
    exact hq.select columns
  · obtain ⟨subset, -, h⟩ := Except.bind_eq_ok.mp h
    obtain rfl := Except.ok.inj h
    refine ⟨hq.built.distinctOn subset, ?_⟩
    unfold Query.distinctOn
    split <;> exact inRange_apply hq rfl
  · obtain ⟨v, -, h⟩ := Except.bind_eq_ok.mp h
    obtain ⟨predicate, -, h⟩ := Except.bind_eq_ok.mp h
    obtain rfl := Except.ok.inj h
    exact ⟨hq.built.filter predicate, inRange_apply hq rfl⟩
  · obtain ⟨columns, -, h⟩ := Except.bind_eq_ok.mp h
    obtain rfl := Except.ok.inj h
    exact ⟨hq.built.groupBy columns, inRange_apply hq rfl⟩
  · obtain ⟨aggregations, -, h⟩ := Except.bind_eq_ok.mp h
    obtain rfl := Except.ok.inj h
    exact ⟨hq.built.agg aggregations, inRange_apply hq rfl⟩
  · obtain ⟨keys, -, h⟩ := Except.bind_eq_ok.mp h
    obtain rfl := Except.ok.inj h
    exact ⟨hq.built.orderBy keys, inRange_apply hq rfl⟩
  · obtain ⟨columns, -, h⟩ := Except.bind_eq_ok.mp h
    obtain rfl := Except.ok.inj h
    exact ⟨hq.built.withColumns columns, inRange_apply hq rfl⟩
  · exact callJoin_expressible hq hargs h
  · obtain ⟨v, -, h⟩ := Except.bind_eq_ok.mp h
    obtain ⟨count, hcount, h⟩ := Except.bind_eq_ok.mp h
    obtain rfl := Except.ok.inj h
    exact ⟨hq.built.limit count, inRange_apply_count hq rfl (toCount_inRange hcount)⟩
  · obtain ⟨v, -, h⟩ := Except.bind_eq_ok.mp h
    obtain ⟨count, hcount, h⟩ := Except.bind_eq_ok.mp h
    obtain rfl := Except.ok.inj h
    exact ⟨hq.built.offset count, inRange_apply_count hq rfl (toCount_inRange hcount)⟩
  · cases h

/-- A start of a query gives an expressible one. -/
theorem callQueries_sound (hargs : ∀ v ∈ arguments, v.Sound)
    (h : callQueries name arguments = .ok v) : v.Sound := by
  unfold callQueries at h
  split at h
  · obtain ⟨argument, hsingle, h⟩ := Except.bind_eq_ok.mp h
    obtain ⟨q, hq, h⟩ := Except.bind_eq_ok.mp h
    obtain rfl := Except.ok.inj h
    intro r hr
    obtain rfl := Value.query.inj hr
    exact toSource_expressible (hargs argument (mem_of_single hsingle)) hq
  · obtain ⟨columns, -, h⟩ := Except.bind_eq_ok.mp h
    obtain rfl := Except.ok.inj h
    intro r hr
    obtain rfl := Value.query.inj hr
    exact ⟨.ofColumns columns, by
      simp [Query.ofColumns, Query.select, Query.counts, Operation.counts, Step.counts]⟩
  · cases h

/-- A column is no query. -/
theorem columnCall_sound (h : columnCall name arguments = .ok v) : v.Sound := by
  obtain ⟨argument, -, h⟩ := Except.bind_eq_ok.mp h
  obtain ⟨column, -, h⟩ := Except.bind_eq_ok.mp h
  obtain rfl := Except.ok.inj h
  exact nofun

/-- A free function gives no query. -/
theorem callFunction_sound (h : callFunction name arguments = .ok v) : v.Sound := by
  unfold callFunction at h
  split at h
  · exact columnCall_sound h
  · cases h

/-- A function of columns gives no query. -/
theorem callFunctions_sound (h : callFunctions name arguments = .ok v) : v.Sound := by
  unfold callFunctions at h
  split at h
  · obtain ⟨argument, -, h⟩ := Except.bind_eq_ok.mp h
    obtain ⟨column, -, h⟩ := Except.bind_eq_ok.mp h
    obtain rfl := Except.ok.inj h
    exact nofun
  · split at h
    · exact columnCall_sound h
    · obtain ⟨argument, -, h⟩ := Except.bind_eq_ok.mp h
      obtain ⟨e, -, h⟩ := Except.bind_eq_ok.mp h
      obtain rfl := Except.ok.inj h
      exact nofun
    · cases h

/-- A method of a sound value with sound arguments gives a sound value. -/
theorem callMethod_sound {target : Value} (htarget : target.Sound)
    (hargs : ∀ v ∈ arguments, v.Sound) (h : callMethod target name arguments = .ok v) :
    v.Sound := by
  unfold callMethod at h
  split at h
  · exact callQueries_sound hargs h
  · exact callFunctions_sound h
  · obtain ⟨e, -, rfl⟩ := Except.map_eq_ok.mp h
    exact nofun
  · next q =>
    obtain ⟨r, hr, rfl⟩ := Except.map_eq_ok.mp h
    intro s hs
    obtain rfl := Value.query.inj hs
    exact callQueryMethod_expressible (htarget q rfl) hargs hr
  · cases h

/-- All bound values are sound. -/
def BindingsSound (bindings : Bindings) : Prop :=
  ∀ entry ∈ bindings, entry.2.Sound

/-- What a name stands for is sound. -/
theorem lookup_sound {bindings : Bindings} (hb : BindingsSound bindings)
    (h : lookup bindings name = .ok v) : v.Sound := by
  unfold lookup at h
  split at h
  · next w hw =>
    obtain rfl := Except.ok.inj h
    obtain ⟨before, after, rfl, -⟩ := List.lookup_eq_some_iff.mp hw
    exact hb (name, w) (by simp)
  · split at h
    · obtain rfl := Except.ok.inj h
      exact nofun
    · split at h
      · obtain rfl := Except.ok.inj h
        exact nofun
      · cases h

mutual

/-- The value of an expression is sound. -/
theorem eval_sound {bindings : Bindings} (hb : BindingsSound bindings) :
    ∀ {node : Node} {v : Value}, eval bindings node = .ok v → v.Sound
  | .string _, _, h | .integer _, _, h | .float _, _, h | .boolean _, _, h => by
    obtain rfl := Except.ok.inj h
    exact nofun
  | .name _, _, h => lookup_sound hb h
  | .call _ _, _, h => by
    rw [eval] at h
    obtain ⟨values, -, h⟩ := Except.bind_eq_ok.mp h
    exact callFunction_sound h
  | .method _ _ _, _, h => by
    rw [eval] at h
    obtain ⟨values, hvalues, h⟩ := Except.bind_eq_ok.mp h
    obtain ⟨target, htarget, h⟩ := Except.bind_eq_ok.mp h
    exact callMethod_sound (eval_sound hb htarget) (evalList_sound hb hvalues) h

/-- The values of expressions are sound. -/
theorem evalList_sound {bindings : Bindings} (hb : BindingsSound bindings) :
    ∀ {nodes : List Node} {values : List Value},
      evalList bindings nodes = .ok values → ∀ v ∈ values, v.Sound
  | [], _, h => by
    obtain rfl := Except.ok.inj h
    exact nofun
  | _ :: _, _, h => by
    rw [evalList] at h
    obtain ⟨first, hfirst, h⟩ := Except.bind_eq_ok.mp h
    obtain ⟨rest, hrest, h⟩ := Except.bind_eq_ok.mp h
    obtain rfl := Except.ok.inj h
    exact List.forall_mem_cons.mpr ⟨eval_sound hb hfirst, evalList_sound hb hrest⟩

end

/-- Bindings stay sound while more of them are evaluated. -/
theorem bindAll_sound {bindings : Bindings} (items : List Binding) (hb : BindingsSound bindings) :
    BindingsSound (bindAll bindings items).1 := by
  induction items generalizing bindings with
  | nil => exact hb
  | cons item items ih =>
    rw [bindAll]
    split
    · next v hv => exact ih (List.forall_mem_cons.mpr ⟨eval_sound hb hv, hb⟩)
    · exact hb

end Script

/-- Every query that a script stands for is expressible. -/
theorem Query.expressible_of_ofScript {text : String} {q : Query} (h : ofScript text = .ok q) :
    q.Expressible := by
  obtain ⟨script, -, h⟩ := Except.bind_eq_ok.mp h
  obtain ⟨_, -, h⟩ := Except.bind_eq_ok.mp h
  obtain ⟨v, hv, h⟩ := Except.bind_eq_ok.mp h
  split at h
  · next q =>
    obtain rfl := Except.ok.inj h
    have hsound := Script.bindAll_sound script.bindings (fun _ => nofun : Script.BindingsSound [])
    exact Script.eval_sound hsound hv _ rfl
  · cases h

end FluentSql
