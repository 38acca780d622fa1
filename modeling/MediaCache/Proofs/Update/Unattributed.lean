import MediaCache.Proofs.Update.Tally

/-!
# Counter changes that nobody can attribute

The counter of a scene or an image has changed on the server, but which performers share in the change is
not known when a part of the object is not stored. Then all counters that may have changed are dropped, so
that the next read of them fetches. The object itself takes the counter that the server returned.
-/

namespace MediaCache

/-- The call has dropped what the change may have reached, and nothing else. An object that nothing
refers to any more may have been collected. -/
structure CounterDropped (c d : Cache) (target : CounterTarget) (obj : ObjectRef) (value : Int)
    (options : Options) : Prop where
  own : d.contains obj = true → d.fieldValue? obj Cache.counterField = some (.int value)
  performer : ∀ p : ObjectRef, p.typename = .performer → d.fieldValue? p Cache.counterField = none
  total : ∀ name v, baseFieldName name = Document.stats.rootField → d.root.get? name = some v →
    v.field? Cache.totalCount = none
  queries : ∀ doc ∈ (Impact.of target.family).counterQueries, ∀ args, d.readQuery doc args = .missing
  other : ∀ o, d.contains o = true → c.contains o = true ∧
    ∀ field, ¬(o = obj ∧ field = Cache.counterField) →
      ¬(o.typename = .performer ∧ field = Cache.counterField) → d.fieldValue? o field = c.fieldValue? o field
  collected : ∀ o, c.contains o = true → d.contains o = false →
    options.collectAfterEvict = true ∧ ¬d.Reaches o.cacheId
  stats : ∀ name, baseFieldName name = Document.stats.rootField →
    d.entry name = ((c.entry name).1.map (Cache.droppedStat Cache.totalCount), (c.entry name).2)
  entries : ∀ name, baseFieldName name ≠ Document.stats.rootField →
    ¬Cache.Answers (Impact.of target.family).counterQueries name → d.entry name = c.entry name

namespace Cache

theorem readFragment_of_gone {c : Cache} {obj : ObjectRef} {fragment : Fragment} {field : String}
    (hfield : field ∈ fragment.fields) (hgone : c.fieldValue? obj field = none) :
    c.readFragment obj fragment = none := by
  unfold readFragment
  split
  · cases hrecord : c.get? obj with
    | none => rfl
    | some record =>
      have hnone : record.get? field = none := by simpa [fieldValue?, hrecord] using hgone
      have hfields : fragment.fields.mapM (fun f => (record.get? f).map (f, ·)) = none := by
        rw [← Option.not_isSome_iff_eq_none]
        intro hsome
        have hread := isSome_of_mem_mapM hsome field hfield
        rw [hnone] at hread
        cases hread
      simp only [Option.bind_eq_bind, Option.bind_some, hfields, Option.bind_none]
  · rfl

/-! ## Before queries are evicted -/

/-- The counters of all performers and the total are gone, and the object has its new counter. -/
def droppedCounters (c : Cache) (obj : ObjectRef) (value : Int) : Cache :=
  let dropped := (c.evictTypeFields (TypeFields.ofRows [(.performer, [counterField])]) none).2
  ((dropped.dropStat totalCount).2.writeField obj counterField (.int value)).2

theorem patchCounter_of_gone {c : Cache} {target : CounterTarget} {id : String}
    (h : ∃ field ∈ target.fragment.fields, c.fieldValue? ⟨target.typename, id⟩ field = none)
    (op : CounterOp) (value : Int) (options : Options) :
    c.patchCounter target id op value options = (.evicted,
      ((c.droppedCounters ⟨target.typename, id⟩ value).evictQueries
        (Impact.of target.family).counterQueries options).2) := by
  obtain ⟨field, hfield, hgone⟩ := h
  have hnone := readFragment_of_gone hfield hgone
  unfold patchCounter spreadCounter
  simp only [hnone]
  rfl

section

variable {c : Cache} (obj : ObjectRef) (value : Int)

@[simp]
theorem contains_droppedCounters (hc : c.Indexed) (o : ObjectRef) :
    (c.droppedCounters obj value).contains o = c.contains o := by
  have htrimmed := trimmed_evictTypeFields hc (TypeFields.ofRows [(.performer, [counterField])]) none
  have hwritten (d : Cache) : (d.writeField obj counterField (.int value)).2.contains o = d.contains o := by
    unfold writeField
    split
    · exact contains_applyToField d obj counterField (.set (.int value)) o.cacheId
    · rfl
  rw [droppedCounters, hwritten, (sameStore_dropStat _ totalCount).contains]
  exact htrimmed.contains o.cacheId

theorem fieldValue?_droppedCounters (hc : c.Indexed) {o : ObjectRef} {field : String}
    (h : ¬(o = obj ∧ field = counterField)) :
    (c.droppedCounters obj value).fieldValue? o field =
      if o.id ≠ "" ∧ o.typename = .performer ∧ field = counterField then none
      else c.fieldValue? o field := by
  have hcovers : (TypeFields.ofRows [(.performer, [counterField])]).covers o.typename field = true ↔
      o.typename = .performer ∧ field = counterField := by
    rw [TypeFields.covers_ofRows]
    simp [eq_comm]
  rw [droppedCounters, fieldValue?_writeField_int_of_ne _ _ h, (sameStore_dropStat _ totalCount).fieldValue?,
    fieldValue?_evictTypeFields hc]
  simp only [hcovers, ne_eq, reduceCtorEq, not_false_eq_true, true_and]

/-- The index names every performer that is stored, so none keeps its counter. -/
theorem counter_droppedCounters (hc : c.Indexed) (hids : c.contains ⟨.performer, ""⟩ = false)
    (hobj : obj.typename ≠ .performer) {p : ObjectRef} (hp : p.typename = .performer) :
    (c.droppedCounters obj value).fieldValue? p counterField = none := by
  rw [fieldValue?_droppedCounters obj value hc fun he => hobj (he.1 ▸ hp)]
  split
  · rfl
  · rename_i hnot
    -- Only a performer without an id is passed over, and there is none.
    have hempty : p.id = "" := by
      by_contra hid
      exact hnot ⟨hid, hp, rfl⟩
    obtain rfl : p = ⟨.performer, ""⟩ := by rw [← hp, ← hempty]
    have hnone : c.get? ⟨.performer, ""⟩ = none := by
      rw [← Option.not_isSome_iff_eq_none]
      exact ne_true_of_eq_false hids
    rw [fieldValue?, hnone, Option.bind_none]

theorem fieldValue?_droppedCounters_self (hc : c.Indexed) (hobj : c.contains obj = true) :
    (c.droppedCounters obj value).fieldValue? obj counterField = some (.int value) := by
  refine fieldValue?_writeField_int_self ?_ counterField value
  have htrimmed := trimmed_evictTypeFields hc (TypeFields.ofRows [(.performer, [counterField])]) none
  rw [(sameStore_dropStat _ totalCount).contains]
  exact (htrimmed.contains obj.cacheId).trans hobj

theorem entry_droppedCounters (c : Cache) (name : String) :
    (c.droppedCounters obj value).entry name =
      if baseFieldName name = Document.stats.rootField then
        ((c.entry name).1.map (droppedStat totalCount), (c.entry name).2)
      else c.entry name := by
  rw [droppedCounters, (sameRoot_writeField_int _ obj counterField value).entry, entry_dropStat,
    (sameRoot_evictTypeFields c _ none).entry]

theorem indexed_droppedCounters (hc : c.Indexed) : (c.droppedCounters obj value).Indexed := by
  have htrimmed := trimmed_evictTypeFields hc (TypeFields.ofRows [(.performer, [counterField])]) none
  exact ((htrimmed.indexed hc).of_sameStore (sameStore_dropStat _ totalCount)).writeField obj counterField _

@[simp]
theorem policies_droppedCounters (c : Cache) : (c.droppedCounters obj value).policies = c.policies := by
  rw [droppedCounters, (sameRoot_writeField_int _ obj counterField value).policies,
    (sameStore_dropStat _ totalCount).policies, (sameRoot_evictTypeFields c _ none).policies]

end

/-! ## The whole call -/

theorem policy_counterQueries (target : CounterTarget) : ∀ doc ∈ (Impact.of target.family).counterQueries,
    doc ∈ Document.all ∧ Policies.standard.root doc.rootField = none := by
  cases target <;> decide

/-- Only collection takes objects, and only those that are not reached. -/
theorem collected_of_evictQueries {c : Cache} (hc : c.Indexed) {docs : List Document} {options : Options}
    {o : ObjectRef} (hin : c.contains o = true)
    (hgone : (c.evictQueries docs options).2.contains o = false) :
    options.collectAfterEvict = true ∧ ¬(c.evictQueries docs options).2.Reaches o.cacheId := by
  have hdropped := hc.of_sameStore (sameStore_dropQueries c docs)
  have hstored : (c.dropQueries docs).contains o = true :=
    ((sameStore_dropQueries c docs).contains o).trans hin
  rw [evictQueries_eq] at hgone ⊢
  split at hgone
  · rename_i hcollect
    rw [if_pos hcollect]
    refine ⟨hcollect, fun hreach => ?_⟩
    have hkept := (contains_collect_iff _ _).2
      ⟨hstored, ((pruned_collect hdropped).reaches_iff o.cacheId).1 hreach⟩
    rw [contains_eq, hkept] at hgone
    cases hgone
  · rw [hstored] at hgone
    cases hgone

section

variable {c : Cache} {target : CounterTarget} {obj : ObjectRef} {value : Int} {options : Options}

theorem contains_of_dropped (hc : c.Indexed) {o : ObjectRef}
    (h : ((c.droppedCounters obj value).evictQueries (Impact.of target.family).counterQueries
      options).2.contains o = true) : c.contains o = true :=
  (contains_droppedCounters obj value hc o).symm.trans (contains_of_contains_evictQueries h)

theorem entry_stats_dropped {name : String} (hname : baseFieldName name = Document.stats.rootField) :
    ((c.droppedCounters obj value).evictQueries (Impact.of target.family).counterQueries
      options).2.entry name = ((c.entry name).1.map (droppedStat totalCount), (c.entry name).2) := by
  have hother : ∀ doc ∈ (Impact.of target.family).counterQueries, doc.rootField ≠ baseFieldName name := by
    rw [hname]
    exact rootField_counterQueries_ne_stats target
  rw [entry_evictQueries_of_not_named hother, entry_droppedCounters, if_pos hname]

/-- No query that sorts by counters may fall back to an object. -/
theorem readQuery_dropped (hpolicies : c.policies = .standard) {doc : Document}
    (hdoc : doc ∈ (Impact.of target.family).counterQueries) (args : Option Json) :
    ((c.droppedCounters obj value).evictQueries (Impact.of target.family).counterQueries
      options).2.readQuery doc args = .missing := by
  obtain ⟨hall, hpolicy⟩ := policy_counterQueries target doc hdoc
  refine readRoot_of_no_entry (entry_evictQueries_of_answers options ⟨doc, hdoc, ?_⟩) fun t => ?_
  · rw [baseFieldName_storeFieldName (Document.isFieldName_of_mem hall)]
  · rw [(sameRoot_evictQueries _ _ options).policies, (sameStore_dropQueries _ _).policies,
      policies_droppedCounters, hpolicies, hpolicy]
    simp

theorem counterDropped_evictQueries (hc : c.Indexed) (hpolicies : c.policies = .standard)
    (hids : c.contains ⟨.performer, ""⟩ = false) (hobj : obj.typename ≠ .performer) :
    CounterDropped c ((c.droppedCounters obj value).evictQueries (Impact.of target.family).counterQueries
      options).2 target obj value options where
  own hin := by
    rw [fieldValue?_evictQueries_of_contains hin]
    exact fieldValue?_droppedCounters_self obj value hc (contains_of_dropped hc hin)
  performer p hp := by
    -- A counter that is left would be one that the index missed.
    by_contra hsome
    obtain ⟨v, hv⟩ := Option.ne_none_iff_exists'.1 hsome
    rw [fieldValue?_evictQueries_of_contains (contains_of_fieldValue? hv),
      counter_droppedCounters obj value hc hids hobj hp] at hv
    cases hv
  total name v hname hv := by
    obtain ⟨w, -, rfl⟩ := Option.map_eq_some_iff.1
      ((congrArg Prod.fst (entry_stats_dropped hname)).symm.trans hv)
    exact field?_droppedStat_self totalCount w
  queries _ hdoc args := readQuery_dropped hpolicies hdoc args
  other o hin := by
    refine ⟨contains_of_dropped hc hin, fun field hown hnot => ?_⟩
    rw [fieldValue?_evictQueries_of_contains hin, fieldValue?_droppedCounters obj value hc hown,
      if_neg fun h => hnot h.2]
  collected o hin hgone :=
    collected_of_evictQueries (indexed_droppedCounters obj value hc)
      ((contains_droppedCounters obj value hc o).trans hin) hgone
  stats _ hname := entry_stats_dropped hname
  entries name hname hanswers := by
    rw [entry_evictQueries_of_not_answers options hanswers, entry_droppedCounters, if_neg hname]

end

/-- When a part of the object is not stored, no number is guessed: the counters of all performers and the
total are dropped, the queries that sort by counters are missing, and the object itself takes the counter
that the server returned if it is stored at all. Everything else is as it was. Performers are found by
their ids, so none may be without one. -/
theorem unattributed_change_dropped {c d : Cache} (hc : c.Reachable) (hpolicies : c.policies = .standard)
    (hids : c.contains ⟨.performer, ""⟩ = false) {target : CounterTarget} {id : String}
    (hgone : ∃ field ∈ target.fragment.fields, c.fieldValue? ⟨target.typename, id⟩ field = none)
    {op : CounterOp} {value : Int} {options : Options} {patch : CounterPatch}
    (h : c.patchCounter target id op value options = (patch, d)) :
    patch = .evicted ∧ CounterDropped c d target ⟨target.typename, id⟩ value options := by
  rw [patchCounter_of_gone hgone] at h
  cases h
  have htype : target.typename ≠ .performer := by cases target <;> decide
  exact ⟨rfl, counterDropped_evictQueries hc.indexed hpolicies hids htype⟩

/-- A scene whose performers are not stored, two performers with counters, the statistics and a page of
scenes that are sorted by their counters. -/
def partialScene : Cache :=
  (new .standard).run [
    .writeRoot "findScenes" none (.object [("scenes", .array [.object
      [("__typename", .string "Scene"), ("id", .string "1"), ("o_counter", .int 4)]])]),
    .writeRoot "findScene" (some (.object [("id", .string "1")])) (reference "Scene:1"),
    .writeRoot "allPerformers" none (.array [
      .object [("__typename", .string "Performer"), ("id", .string "7"), ("o_counter", .int 9)],
      .object [("__typename", .string "Performer"), ("id", .string "8"), ("name", .string "A"),
        ("o_counter", .int 2)]]),
    .writeRoot "stats" none (.object [("scene_count", .int 1), ("total_o_count", .int 15)])]

def countedPartialScene : Cache := (partialScene.patchCounter .scene "1" .increment 5 {}).2

theorem partialScene_counted :
    partialScene.Reachable ∧ partialScene.policies = .standard ∧
      partialScene.contains ⟨.performer, ""⟩ = false ∧
      partialScene.fieldValue? ⟨.scene, "1"⟩ "performers" = none ∧
      partialScene.patchCounter .scene "1" .increment 5 {} = (.evicted, countedPartialScene) ∧
      countedPartialScene.fieldValue? ⟨.scene, "1"⟩ counterField = some (.int 5) ∧
      countedPartialScene.fieldValue? ⟨.performer, "7"⟩ counterField = none ∧
      countedPartialScene.fieldValue? ⟨.performer, "8"⟩ "name" = some (.string "A") ∧
      countedPartialScene.root.get? "stats" = some (.object [("scene_count", .int 1)]) ∧
      countedPartialScene.readQuery .findScenes none = .missing := by
  have hreach : partialScene.Reachable := ⟨_, _, rfl⟩
  have hids : partialScene.contains ⟨.performer, ""⟩ = false := by decide +kernel
  have hgone : partialScene.fieldValue? ⟨.scene, "1"⟩ "performers" = none := by decide +kernel
  have hevicted : (partialScene.patchCounter .scene "1" .increment 5 {}).1 = .evicted := by decide +kernel
  have hcall : partialScene.patchCounter .scene "1" .increment 5 {} = (.evicted, countedPartialScene) :=
    Prod.ext hevicted rfl
  have hmissing : ∃ field ∈ CounterTarget.scene.fragment.fields,
      partialScene.fieldValue? ⟨CounterTarget.scene.typename, "1"⟩ field = none :=
    ⟨"performers", by decide, hgone⟩
  obtain ⟨-, hdropped⟩ := unattributed_change_dropped hreach rfl hids hmissing hcall
  refine ⟨hreach, rfl, hids, hgone, hcall, hdropped.own (by decide +kernel), hdropped.performer _ rfl, ?_, ?_,
    hdropped.queries .findScenes (by decide) none⟩
  · rw [(hdropped.other ⟨.performer, "8"⟩ (by decide +kernel)).2 "name" (by decide) (by decide)]
    decide +kernel
  · rw [show countedPartialScene.root.get? "stats" = (countedPartialScene.entry "stats").1 from rfl,
      hdropped.stats "stats" (by decide +kernel)]
    decide +kernel

end Cache

end MediaCache
