import MediaCache.Proofs.Update.Statistics
import MediaCache.Update.Overflow

/-!
# Runs that end

A run stops at the first sum that leaves 64 bits. A run that ends does the same as one that does not look
out for such sums, and none of its sums was cut.
-/

namespace MediaCache

variable {options : Options} {now : String} {c d : Cache}

/-! ## Sums -/

@[simp]
theorem sumFits_eq {v : Json} {delta : Double} (hdelta : delta.isWhole = true) :
    sumFits v delta = v.asInt64?.all fun i => inInt64 (i + clampInt64 delta.truncate) := by
  rw [sumFits, hdelta]
  cases v.asInt64? <;> rfl

theorem Cache.statFits_iff {stat : String} {delta : Double} :
    c.statFits stat delta = true ↔
      ∀ name v, baseFieldName name = Document.stats.rootField → c.root.get? name = some v →
        (v.field? stat).all (sumFits · delta) = true := by
  rw [Cache.statFits, List.all_eq_true, Prod.forall]
  simp only [Cache.mem_rootEntries_iff, and_imp]

theorem Cache.count_addedStat_of_fits {v : Json} {stat : String} {delta : Double}
    (hdelta : delta.isWhole = true) (hfits : (v.field? stat).all (sumFits · delta) = true) :
    ((addedStat stat delta v).field? stat).bind Json.asInt64? =
      ((v.field? stat).bind Json.asInt64?).map (· + clampInt64 delta.truncate) := by
  rw [count_addedStat hdelta]
  refine Option.map_congr fun i hi => ?_
  obtain ⟨w, hw, hi⟩ := Option.bind_eq_some_iff.1 hi
  rw [hw, Option.all_some, sumFits_eq hdelta, hi] at hfits
  exact wrapInt64_of_inInt64 hfits

/-! ## Plans -/

theorem Step.run?_eq_some_iff {step : Step} :
    step.run? options now c = some d ↔ step.fits c = true ∧ step.run options now c = d := by
  rw [Step.run?, Option.ite_none_right_eq_some, Option.some.injEq]

namespace Plan

variable {plan : Plan}

@[simp]
theorem run?_nil : Plan.run? options now c [] = some c := rfl

theorem run?_cons (step : Step) (rest : Plan) :
    Plan.run? options now c (step :: rest) =
      (step.run? options now c).bind (Plan.run? options now · rest) := List.foldlM_cons

theorem run?_append (first rest : Plan) :
    Plan.run? options now c (first ++ rest) =
      (Plan.run? options now c first).bind (Plan.run? options now · rest) := List.foldlM_append

theorem run_of_run? (h : plan.run? options now c = some d) : plan.run options now c = d := by
  induction plan generalizing c with
  | nil => exact Option.some.inj h
  | cons step rest ih =>
    rw [run?_cons] at h
    obtain ⟨next, hstep, hrest⟩ := Option.bind_eq_some_iff.1 h
    obtain ⟨-, rfl⟩ := Step.run?_eq_some_iff.1 hstep
    exact ih hrest

end Plan

/-! ## Mutations -/

namespace Cache

variable {m : Mutation} {result : Option Json}

theorem applyMutation?_cases {applied : Outcome × Cache}
    (h : c.applyMutation? options now m result = some applied) :
    (result.filter m.kind.accepts = none ∧ applied = (.skipped, c)) ∨
      ∃ r d, result.filter m.kind.accepts = some r ∧ applied = (.applied, d) ∧
        Plan.run? options now (c.writeResult m.kind.subject r) (m.plan r) = some d := by
  unfold applyMutation? at h
  split at h
  · rename_i hskipped
    exact .inl ⟨hskipped, (Option.some.inj h).symm⟩
  · rename_i r hr
    obtain ⟨d, hd, rfl⟩ := Option.map_eq_some_iff.1 h
    exact .inr ⟨r, d, hr, rfl, hd⟩

theorem applyMutation_of_applyMutation? {applied : Outcome × Cache}
    (h : c.applyMutation? options now m result = some applied) :
    c.applyMutation options now m result = applied := by
  rcases applyMutation?_cases h with ⟨hskipped, rfl⟩ | ⟨r, d, hr, rfl, hd⟩
  · rw [applyMutation, hskipped]
  · rw [applyMutation, hr]
    exact congrArg (Outcome.applied, ·) (Plan.run_of_run? hd)

end Cache

end MediaCache
