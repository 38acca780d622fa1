import MediaCache.Proofs.Update.Counts

/-!
# Drop-down lists only grow

The lists that fill the filters are cached as lists of references. Mutations never drop or shorten one:
they append a reference to each new object of its family, once.
-/

namespace MediaCache

def Family.dropdown? : Family → Option Document
  | movie => some .allMoviesForFilter
  | performer => some .allPerformersForFilter
  | studio => some .allStudiosForFilter
  | tag => some .allTagsForFilter
  | _ => none

namespace Family

variable {family : Family} {list : Document}

theorem listQuery_eq (family : Family) : (Impact.of family).listQuery = family.dropdown? := by
  cases family <;> rfl

theorem mem_dropdowns (h : family.dropdown? = some list) : list ∈ Document.dropdowns := by
  cases family <;> cases h <;> decide

theorem eq_of_dropdown? {other : Family} {list' : Document} (h : family.dropdown? = some list)
    (h' : other.dropdown? = some list') (hfield : list'.rootField = list.rootField) :
    other = family := by
  have hall : ∀ f ∈ Family.all, ∀ a ∈ f.dropdown?, ∀ g ∈ Family.all, ∀ b ∈ g.dropdown?,
      b.rootField = a.rootField → g = f := by decide
  exact hall family (mem_all family) list h other (mem_all other) list' h' hfield

end Family

theorem Document.IsEvicted.rootField_ne {doc list : Document} (h : doc.IsEvicted)
    (hlist : list ∈ dropdowns) : doc.rootField ≠ list.rootField := by
  have hall : ∀ doc ∈ Document.all, doc ∉ dropdowns → ∀ list ∈ dropdowns,
      doc.rootField ≠ list.rootField := by decide
  exact hall doc h.1.1 h.2 list hlist

theorem Impact.isEvicted_counterQueries (family : Family) :
    ∀ doc ∈ (of family).counterQueries, doc.IsEvicted := by
  cases family <;> decide

def Step.queries : Step → List Document
  | appendReference _ list => [list]
  | addToStat .. | countPlay _ => [.stats]
  | deleteObject _ lookup => [lookup]
  | evictQueries docs => docs
  | patchCounter target .. => .stats :: (Impact.of target.family).counterQueries
  | evictObject _ | evictField .. | evictTypeFields .. | replaceField .. | addToField .. => []

/-! ## Lists of references -/

def UniqueReferences (items : List Json) : Prop := (items.filterMap referenceId?).Nodup

instance (items : List Json) : Decidable (UniqueReferences items) :=
  inferInstanceAs (Decidable (List.Nodup _))

theorem UniqueReferences.append {items : List Json} {obj : ObjectRef} (h : UniqueReferences items)
    (hnew : obj.toReference ∉ items) : UniqueReferences (items ++ [obj.toReference]) := by
  have hid : referenceId? obj.toReference = some obj.cacheId := ObjectRef.referenceId?_toReference obj
  unfold UniqueReferences
  rw [List.filterMap_append, List.filterMap_cons_some hid, List.filterMap_nil, List.nodup_append]
  refine ⟨h, List.nodup_singleton _, fun id hold new hnewid => ?_⟩
  rintro rfl
  obtain rfl := List.mem_singleton.1 hnewid
  obtain ⟨v, hv, hsame⟩ := List.mem_filterMap.1 hold
  rw [eq_reference_of_referenceId? hsame] at hv
  exact hnew hv

namespace Cache

/-- A list that is cached under the name stays cached, and references to some of the objects are
appended to it, none twice. -/
def GrowsList (name : String) (objs : List ObjectRef) (c d : Cache) : Prop :=
  ∀ items, c.root.get? name = some (.array items) → ∃ added,
    d.root.get? name = some (.array (items ++ added)) ∧
      (UniqueReferences items → UniqueReferences (items ++ added)) ∧
      ∀ v ∈ added, ∃ obj ∈ objs, v = obj.toReference

def Lists (c : Cache) (name : String) (obj : ObjectRef) : Prop :=
  ∃ items, c.root.get? name = some (.array items) ∧ obj.toReference ∈ items

variable {c d e : Cache} {name : String} {objs more : List ObjectRef} {obj : ObjectRef}

namespace GrowsList

theorem of_entry (h : d.entry name = c.entry name) : GrowsList name objs c d := by
  intro items hitems
  have hroot : d.root.get? name = c.root.get? name := congrArg Prod.fst h
  refine ⟨[], ?_, fun hunique => ?_, List.forall_mem_nil _⟩
  · rw [hroot, hitems, List.append_nil]
  · rwa [List.append_nil]

theorem of_sameRoot (h : SameRoot c d) : GrowsList name objs c d := of_entry (h.entry name)

theorem trans (h : GrowsList name objs c d) (h' : GrowsList name more d e) :
    GrowsList name (objs ++ more) c e := by
  intro items hitems
  obtain ⟨added, hadded, hunique, hnew⟩ := h items hitems
  obtain ⟨added', hadded', hunique', hnew'⟩ := h' (items ++ added) hadded
  refine ⟨added ++ added', by rw [hadded', List.append_assoc], fun hitems => ?_, ?_⟩
  · rw [← List.append_assoc]
    exact hunique' (hunique hitems)
  · intro v hv
    rcases List.mem_append.1 hv with hv | hv
    · obtain ⟨obj, hobj, rfl⟩ := hnew v hv
      exact ⟨obj, List.mem_append_left _ hobj, rfl⟩
    · obtain ⟨obj, hobj, rfl⟩ := hnew' v hv
      exact ⟨obj, List.mem_append_right _ hobj, rfl⟩

theorem mono (h : GrowsList name objs c d) (hmore : objs ⊆ more) : GrowsList name more c d := by
  intro items hitems
  obtain ⟨added, hadded, hunique, hnew⟩ := h items hitems
  refine ⟨added, hadded, hunique, fun v hv => ?_⟩
  obtain ⟨obj, hobj, rfl⟩ := hnew v hv
  exact ⟨obj, hmore hobj, rfl⟩

theorem trans_self (h : GrowsList name objs c d) (h' : GrowsList name objs d e) :
    GrowsList name objs c e :=
  (h.trans h').mono (List.append_subset.2 ⟨List.Subset.refl _, List.Subset.refl _⟩)

theorem lists (h : GrowsList name objs c d) (hlists : c.Lists name obj) : d.Lists name obj := by
  obtain ⟨items, hitems, hin⟩ := hlists
  obtain ⟨added, hadded, -⟩ := h items hitems
  exact ⟨items ++ added, hadded, List.mem_append_left _ hin⟩

end GrowsList

/-! ## Steps -/

theorem get?_appendReference {list : Document} (hname : baseFieldName name = list.rootField)
    {items : List Json} (hitems : c.root.get? name = some (.array items)) (obj : ObjectRef) :
    (c.appendReference obj list).2.root.get? name =
      some (.array (if obj.toReference ∈ items then items else items ++ [obj.toReference])) := by
  have hentry : (c.appendReference obj list).2.entry name = _ :=
    entry_modifyRoot c list.rootField _ name
  rw [if_pos hname, hitems] at hentry
  refine (congrArg Prod.fst hentry).trans ?_
  simp only
  split <;> simp [FieldUpdate.onEntry, entry, hitems]

theorem growsList_appendReference {list : Document} (hname : baseFieldName name = list.rootField)
    (c : Cache) (obj : ObjectRef) : GrowsList name [obj] c (c.appendReference obj list).2 := by
  intro items hitems
  rw [get?_appendReference hname hitems]
  split
  · exact ⟨[], by rw [List.append_nil], fun h => by rwa [List.append_nil], List.forall_mem_nil _⟩
  · rename_i hnew
    exact ⟨[obj.toReference], rfl, fun h => h.append hnew,
      List.forall_mem_singleton.2 ⟨obj, List.mem_singleton_self _, rfl⟩⟩

theorem lists_appendReference {list : Document} (hname : baseFieldName name = list.rootField)
    {items : List Json} (hitems : c.root.get? name = some (.array items)) (obj : ObjectRef) :
    (c.appendReference obj list).2.Lists name obj := by
  refine ⟨_, get?_appendReference hname hitems obj, ?_⟩
  split
  · assumption
  · exact List.mem_append_right _ (List.mem_singleton_self _)

section

/- The statistics are patched in place. Entries of other queries are as they were. -/

variable (hname : baseFieldName name ≠ Document.stats.rootField)
include hname

theorem entry_addToStat_of_ne (c : Cache) (stat : String) (delta : Double) :
    (c.addToStat stat delta).2.entry name = c.entry name := by
  rw [entry_addToStat, if_neg hname]

theorem entry_dropStat_of_ne (c : Cache) (stat : String) :
    (c.dropStat stat).2.entry name = c.entry name := by
  rw [entry_dropStat, if_neg hname]

theorem entry_countPlay_of_ne (c : Cache) (scene : ObjectRef) (now : String) :
    (c.countPlay scene now).entry name = c.entry name :=
  countPlay_keeps (P := fun d => d.entry name = c.entry name) rfl
    (fun _ _ _ => (sameRoot_applyToField c scene _ _).1.entry name)
    (fun d hd => ((sameRoot_modifyField d scene _ _).1.entry name).trans hd)
    (fun d stat _ hd => (entry_addToStat_of_ne hname d stat _).trans hd)
    fun d hd => (entry_dropStat_of_ne hname d _).trans hd

theorem entry_spreadCounter_of_ne (c : Cache) (target : CounterTarget) (obj : ObjectRef)
    (op : CounterOp) : (c.spreadCounter target obj op).2.entry name = c.entry name := by
  unfold spreadCounter
  split
  · exact (entry_addToStat_of_ne hname _ _ _).trans
      ((sameRoot_foldl_patchPerformer _ _ { cache := c }).entry name)
  · exact (entry_dropStat_of_ne hname _ _).trans ((sameRoot_evictTypeFields c _ none).entry name)

end

variable {m : Mutation} {result : Json} {list : Document} {step : Step}

theorem entry_step_of_apart (hstep : ∀ doc ∈ step.queries,
      doc ∈ Document.all ∧ doc.rootField ≠ baseFieldName name) (options : Options) (now : String)
    (c : Cache) : (step.run options now c).entry name = c.entry name := by
  have hsingle {doc : Document} (h : [doc] = step.queries) : baseFieldName name ≠ doc.rootField :=
    (hstep doc (h ▸ List.mem_singleton_self doc)).2.symm
  cases step with
  | appendReference obj list =>
    unfold Step.run appendReference
    rw [entry_modifyRoot, if_neg (hsingle rfl)]
  | addToStat stat delta => exact entry_addToStat_of_ne (hsingle rfl) c stat delta
  | deleteObject obj lookup =>
    -- A look-up has an entry of its own, and no list is one.
    refine (entry_deleteObject c obj lookup name).trans (if_neg ?_)
    obtain ⟨hall, hne⟩ := hstep lookup (List.mem_singleton_self _)
    rintro rfl
    exact hne (baseFieldName_storeFieldName (Document.isFieldName_of_mem hall) _).symm
  | evictObject obj => exact (sameRoot_evictObject c obj).entry name
  | evictField obj field => exact (sameRoot_modifyField c obj field _).1.entry name
  | evictTypeFields fields ignore => exact (sameRoot_evictTypeFields c fields ignore).entry name
  | evictQueries docs => exact entry_evictQueries_of_not_named fun doc hdoc => (hstep doc hdoc).2
  | replaceField obj field v => exact (sameRoot_modifyField c obj field _).1.entry name
  | addToField obj field delta => exact (sameRoot_modifyField c obj field _).1.entry name
  | countPlay scene => exact entry_countPlay_of_ne (hsingle rfl) c scene now
  | patchCounter target id op value =>
    obtain ⟨hstats, hcounters⟩ := List.forall_mem_cons.1 hstep
    refine (entry_evictQueries_of_not_named fun doc hdoc => (hcounters doc hdoc).2).trans ?_
    exact ((sameRoot_writeField_int _ _ counterField value).entry name).trans
      (entry_spreadCounter_of_ne hstats.2.symm c target _ op)

theorem entry_planned (hlist : list ∈ Document.dropdowns) (hname : baseFieldName name = list.rootField)
    (hstep : step.Planned m result)
    (hother : ∀ obj list', step = .appendReference obj list' → list'.rootField ≠ list.rootField)
    (options : Options) (now : String) (c : Cache) :
    (step.run options now c).entry name = c.entry name := by
  have hstats : Document.stats ∈ Document.all ∧ Document.stats.rootField ≠ list.rootField := by
    have hall : ∀ list ∈ Document.dropdowns,
        Document.stats ∈ Document.all ∧ Document.stats.rootField ≠ list.rootField := by decide
    exact hall list hlist
  have hevicted {doc : Document} (hdoc : doc.IsEvicted) :
      doc ∈ Document.all ∧ doc.rootField ≠ list.rootField := ⟨hdoc.1.1, hdoc.rootField_ne hlist⟩
  refine entry_step_of_apart (fun doc hdoc => ?_) options now c
  rw [hname]
  cases step with
  | appendReference obj list' =>
    -- Any other list is that of another family.
    obtain ⟨family, -, hquery, -⟩ := hstep
    obtain rfl := List.mem_singleton.1 hdoc
    exact ⟨(Impact.isList_listQuery family _ hquery).1, hother obj _ rfl⟩
  | addToStat | countPlay =>
    obtain rfl := List.mem_singleton.1 hdoc
    exact hstats
  | deleteObject obj lookup =>
    have hlookups : ∀ lookup ∈ Document.all, lookup.singleObject.isSome = true →
        ∀ list ∈ Document.dropdowns, lookup.rootField ≠ list.rootField := by decide
    obtain rfl := List.mem_singleton.1 hdoc
    exact ⟨hstep.1, hlookups doc hstep.1 hstep.2 list hlist⟩
  | evictQueries docs => exact hevicted (hstep doc hdoc)
  | patchCounter target id op value =>
    rcases List.mem_cons.1 hdoc with rfl | hcounter
    · exact hstats
    · exact hevicted (Impact.isEvicted_counterQueries target.family doc hcounter)
  | evictObject | evictField | evictTypeFields | replaceField | addToField => cases hdoc

end Cache

/-! ## Mutations -/

/-- The object of the family that the mutation has created, when the server returned its id. -/
def Mutation.createdObject? (m : Mutation) (family : Family) (result : Json) : Option ObjectRef :=
  if m.kind.created? = some family then resultObject? family.typename result else none

theorem Mutation.appendReference_mem_plan {m : Mutation} {family : Family} {result : Json}
    {obj : ObjectRef} {list : Document} (hlist : family.dropdown? = some list)
    (hobj : m.createdObject? family result = some obj) :
    .appendReference obj list ∈ m.plan result := by
  unfold createdObject? at hobj
  split at hobj
  · rename_i hcreated
    have happend : Step.appendReference obj list ∈
        Plan.appendIf (Impact.of family).listQuery (resultObject? family.typename result) := by
      rw [Family.listQuery_eq, hlist, hobj]
      exact List.mem_singleton_self _
    cases m
    case studioCreate parentId =>
      cases hcreated
      exact List.mem_append_left _ (List.mem_append_left _ (List.mem_append_left _ happend))
    case movieCreate | performerCreate | tagCreate =>
      cases hcreated
      exact List.mem_append_left _ (List.mem_append_left _ happend)
    -- Rows of the other families are in no such list.
    all_goals cases hcreated <;> cases hlist
  · cases hobj

namespace Cache

variable {c : Cache} {name : String} {obj : ObjectRef} {m : Mutation} {result : Json}
  {family : Family} {list : Document}

theorem growsList_step {step : Step} (hlist : family.dropdown? = some list)
    (hname : baseFieldName name = list.rootField) (hstep : step.Planned m result) (options : Options)
    (now : String) (c : Cache) :
    GrowsList name (m.createdObject? family result).toList c (step.run options now c) := by
  by_cases hother : ∀ obj list', step = .appendReference obj list' → list'.rootField ≠ list.rootField
  · exact .of_entry (entry_planned (Family.mem_dropdowns hlist) hname hstep hother options now c)
  · push Not at hother
    obtain ⟨obj, list', rfl, hfield⟩ := hother
    obtain ⟨other, hcreated, hquery, hobj⟩ := hstep
    rw [Family.listQuery_eq] at hquery
    obtain rfl := Family.eq_of_dropdown? hlist hquery hfield
    rw [Mutation.createdObject?, if_pos hcreated, hobj]
    exact growsList_appendReference (hname.trans hfield.symm) c obj

theorem growsList_plan {plan : Plan} (hlist : family.dropdown? = some list)
    (hname : baseFieldName name = list.rootField) (hplan : plan.Planned m result) (options : Options)
    (now : String) (c : Cache) :
    GrowsList name (m.createdObject? family result).toList c (plan.run options now c) :=
  List.foldlRecOn plan _ (.of_sameRoot (SameRoot.refl c)) fun d hd step hstep =>
    hd.trans_self (growsList_step hlist hname (hplan step hstep) options now d)

/-- The plan appends the new object at one of its steps, and no later step takes it off. -/
theorem lists_plan (hlist : family.dropdown? = some list)
    (hname : baseFieldName name = list.rootField) {items : List Json}
    (hitems : c.root.get? name = some (.array items)) (options : Options) (now : String)
    (hobj : m.createdObject? family result = some obj) :
    ((m.plan result).run options now c).Lists name obj := by
  have hplanned := m.plan_planned result
  obtain ⟨before, after, hplan⟩ := List.append_of_mem (Mutation.appendReference_mem_plan hlist hobj)
  rw [hplan] at hplanned ⊢
  obtain ⟨hbefore, hrest⟩ := List.forall_mem_append.1 hplanned
  obtain ⟨added, hadded, -⟩ := growsList_plan hlist hname hbefore options now c items hitems
  rw [Plan.run, List.foldl_append]
  exact (growsList_plan hlist hname (List.forall_mem_cons.1 hrest).2 options now _).lists
    (lists_appendReference hname hadded obj)

/-! ## Runs -/

/-- The objects of the family that applied mutations of the run have created, as far as the server
returned their ids. -/
def createdObjects (family : Family) (c : Cache) : List UpdateCall → List ObjectRef
  | [] => []
  | call :: rest =>
    match c.updateBy call with
    | (.applied, d) =>
      (call.result.bind (call.mutation.createdObject? family)).toList ++ d.createdObjects family rest
    | (.skipped, d) => d.createdObjects family rest

theorem growsList_updateAll (hlist : family.dropdown? = some list)
    (hname : baseFieldName name = list.rootField) (c : Cache) (calls : List UpdateCall) :
    GrowsList name (c.createdObjects family calls) c (c.updateAll calls) := by
  induction calls generalizing c with
  | nil => exact .of_sameRoot (SameRoot.refl c)
  | cons call rest ih =>
    have hrun : c.updateAll (call :: rest) = (c.updateBy call).2.updateAll rest := rfl
    rw [hrun, createdObjects]
    rcases updateBy_cases c call with hskipped | ⟨result, hresult, happlied⟩
    · rw [hskipped]
      exact ih c
    · rw [happlied, hresult]
      have hwritten : GrowsList name (call.mutation.createdObject? family result).toList c _ :=
        .of_sameRoot (sameRoot_writeResult c call.mutation.kind.subject result)
      exact (hwritten.trans_self (growsList_plan hlist hname (call.mutation.plan_planned result)
        call.options call.now _)).trans (ih _)

theorem lists_updateAll (hlist : family.dropdown? = some list)
    (hname : baseFieldName name = list.rootField) {calls : List UpdateCall} {items : List Json}
    (hitems : c.root.get? name = some (.array items)) (hobj : obj ∈ c.createdObjects family calls) :
    (c.updateAll calls).Lists name obj := by
  induction calls generalizing c items with
  | nil => cases hobj
  | cons call rest ih =>
    have hrun : c.updateAll (call :: rest) = (c.updateBy call).2.updateAll rest := rfl
    rw [createdObjects] at hobj
    rw [hrun]
    rcases updateBy_cases c call with hskipped | ⟨result, hresult, happlied⟩
    · rw [hskipped] at hobj ⊢
      exact ih hitems hobj
    · rw [happlied, hresult] at hobj
      rw [happlied]
      have hwritten := (sameRoot_writeResult c call.mutation.kind.subject result).root
      rw [← hwritten] at hitems
      rcases List.mem_append.1 hobj with hhere | hlater
      · exact (growsList_updateAll hlist hname _ rest).lists
          (lists_plan hlist hname hitems call.options call.now (Option.mem_toList.1 hhere))
      · obtain ⟨added, hadded, -⟩ := growsList_plan hlist hname (call.mutation.plan_planned result)
          call.options call.now _ items hitems
        exact ih hadded hlater

/-- Over any run of mutations a drop-down list that is cached stays cached and keeps its items in their
order. It gains a reference to each object of its family that was created, and nothing else, and it
never refers to an object twice. -/
theorem dropdown_grows (hlist : family.dropdown? = some list)
    (hname : baseFieldName name = list.rootField) {items : List Json}
    (hitems : c.root.get? name = some (.array items)) (hunique : UniqueReferences items)
    (calls : List UpdateCall) :
    ∃ added, (c.updateAll calls).root.get? name = some (.array (items ++ added)) ∧
      UniqueReferences (items ++ added) ∧
      (∀ obj ∈ c.createdObjects family calls, obj.toReference ∈ items ++ added) ∧
      ∀ v ∈ added, ∃ obj ∈ c.createdObjects family calls, v = obj.toReference := by
  obtain ⟨added, hadded, hstays, hnew⟩ := growsList_updateAll hlist hname c calls items hitems
  refine ⟨added, hadded, hstays hunique, fun obj hobj => ?_, hnew⟩
  obtain ⟨items', hitems', hin⟩ := lists_updateAll hlist hname hitems hobj
  rw [hadded] at hitems'
  cases hitems'
  exact hin

def oneTag : Cache := (new .standard).run [.writeRoot "allTags" none (.array [reference "Tag:1"])]

/-- Tag 8 is new, and is returned twice, once with a number for its id. Tag 1 is destroyed. -/
def tagCalls : List UpdateCall := [
  { mutation := .tagCreate, result := some (.object [("id", .int 8)]) },
  { mutation := .tagCreate, result := some .null },
  { mutation := .tagDestroy "1", result := some (.bool true) },
  { mutation := .tagCreate, result := some (.object [("id", .string "8")]) }]

theorem oneTag_grows :
    Family.tag.dropdown? = some .allTagsForFilter ∧
      baseFieldName "allTags" = Document.allTagsForFilter.rootField ∧
      oneTag.root.get? "allTags" = some (.array [reference "Tag:1"]) ∧
      UniqueReferences [reference "Tag:1"] ∧
      oneTag.createdObjects .tag tagCalls = [⟨.tag, "8"⟩, ⟨.tag, "8"⟩] ∧
      (∃ added, (oneTag.updateAll tagCalls).root.get? "allTags" =
          some (.array ([reference "Tag:1"] ++ added)) ∧
        reference "Tag:8" ∈ [reference "Tag:1"] ++ added) ∧
      (oneTag.updateAll tagCalls).root.get? "allTags" =
        some (.array [reference "Tag:1", reference "Tag:8"]) := by
  have hlist : Family.tag.dropdown? = some .allTagsForFilter := rfl
  have hname : baseFieldName "allTags" = Document.allTagsForFilter.rootField := by decide +kernel
  have hitems : oneTag.root.get? "allTags" = some (.array [reference "Tag:1"]) := by decide +kernel
  have hunique : UniqueReferences [reference "Tag:1"] := by decide +kernel
  have hcreated : oneTag.createdObjects .tag tagCalls = [⟨.tag, "8"⟩, ⟨.tag, "8"⟩] := by
    decide +kernel
  obtain ⟨added, hadded, -, hlisted, -⟩ := dropdown_grows hlist hname hitems hunique tagCalls
  rw [hcreated] at hlisted
  exact ⟨hlist, hname, hitems, hunique, hcreated,
    ⟨added, hadded, hlisted ⟨.tag, "8"⟩ List.mem_cons_self⟩, by decide +kernel⟩

end Cache

end MediaCache
