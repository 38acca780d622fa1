import Mathlib.Data.List.Permutation
import MediaCache.Proofs.Store.Read
import MediaCache.Proofs.Update.Dropdowns
import MediaCache.Proofs.Update.Returned

/-!
# Looking up a created row

A look-up by id falls back to stored objects, and the result of a create is stored before its plan runs.
What was cached for the look-up before the row existed is answered all the same: a create evicts lists,
not look-ups.
-/

namespace MediaCache

/-! ## Plans of creates -/

def Step.isDelete : Step → Bool
  | deleteObject .. => true
  | _ => false

namespace Plan

variable {plan more : Plan}

def DeletesNothing (plan : Plan) : Prop := ∀ step ∈ plan, step.isDelete = false

theorem DeletesNothing.append (h : plan.DeletesNothing) (h' : more.DeletesNothing) :
    DeletesNothing (plan ++ more) :=
  List.forall_mem_append.2 ⟨h, h'⟩

theorem deletesNothing_evictions (fields : TypeFields) (ignore : Option ObjectRef)
    (docs : List Document) : DeletesNothing [.evictTypeFields fields ignore, .evictQueries docs] := by
  simp [DeletesNothing, Step.isDelete]

theorem deletesNothing_appendIf (list : Option Document) (obj : Option ObjectRef) :
    (appendIf list obj).DeletesNothing := by
  cases list <;> cases obj <;> simp [appendIf, DeletesNothing, Step.isDelete]

theorem deletesNothing_addToStatIf (stat : Option String) (delta : Double) :
    (addToStatIf stat delta).DeletesNothing := by
  cases stat <;> simp [addToStatIf, DeletesNothing, Step.isDelete]

theorem deletesNothing_create (family : Family) (result : Json) (keepOwn : Bool) :
    (create family result keepOwn).DeletesNothing :=
  ((deletesNothing_appendIf _ _).append (deletesNothing_addToStatIf _ _)).append
    (deletesNothing_evictions _ _ _)

theorem deletesNothing_createScene (result : Json) (fileIds : List String) :
    (createScene result fileIds).DeletesNothing := by
  refine (deletesNothing_addToStatIf _ _).append ?_
  cases fileIds <;> exact deletesNothing_evictions _ _ _

theorem deletesNothing_createStudio (result : Json) (parentId : Option String) :
    (createStudio result parentId).DeletesNothing := by
  refine (((deletesNothing_appendIf _ _).append (deletesNothing_addToStatIf _ _)).append ?_).append ?_
  · cases parentId <;> simp [DeletesNothing, Step.isDelete]
  · simp [DeletesNothing, Step.isDelete]

theorem deletesNothing_markerChanged (sceneId : String) : (markerChanged sceneId).DeletesNothing :=
  List.forall_mem_cons.2 ⟨rfl, deletesNothing_evictions _ _ _⟩

end Plan

theorem Mutation.plan_deletesNothing {m : Mutation} {family : Family}
    (hcreated : m.kind.created? = some family) (result : Json) : (m.plan result).DeletesNothing := by
  cases m
  case sceneCreate fileIds => exact Plan.deletesNothing_createScene result fileIds
  case sceneMarkerCreate sceneId => exact Plan.deletesNothing_markerChanged sceneId
  case studioCreate parentId => exact Plan.deletesNothing_createStudio result parentId
  case movieCreate | galleryCreate | galleryChapterCreate | performerCreate | tagCreate =>
    exact Plan.deletesNothing_create _ result _
  all_goals cases hcreated

theorem Step.Sound.isList {step : Step} (h : step.Sound) (hdelete : step.isDelete = false) :
    ∀ doc ∈ step.queries, doc.IsList := by
  have hstats : Document.stats.IsList := by decide
  cases step with
  | appendReference obj list => exact List.forall_mem_singleton.2 h
  | addToStat | countPlay => exact List.forall_mem_singleton.2 hstats
  | deleteObject => cases hdelete
  | evictQueries docs => exact h
  | patchCounter target id op value =>
    exact List.forall_mem_cons.2 ⟨hstats, Impact.isList_counterQueries target.family⟩
  | evictObject | evictField | evictTypeFields | replaceField | addToField =>
    exact List.forall_mem_nil _

namespace Cache

variable {c d : Cache} {obj : ObjectRef} {lookup : Document}

theorem entry_lookup_plan (hlookup : lookup ∈ Document.all) (hsingle : lookup.singleObject.isSome = true)
    {plan : Plan} (hsound : plan.Sound) (hdelete : plan.DeletesNothing) (options : Options) (now : String)
    (c : Cache) :
    (plan.run options now c).entry (lookupName obj lookup) = c.entry (lookupName obj lookup) := by
  refine List.foldlRecOn (motive := fun d : Cache => d.entry (lookupName obj lookup) = _) plan _ rfl
    fun d hd step hstep => ?_
  refine (entry_step_of_apart (fun doc hdoc => ?_) options now d).trans hd
  obtain ⟨hall, hlist⟩ := (hsound step hstep).isList (hdelete step hstep) doc hdoc
  exact ⟨hall, (rootField_ne_lookupName hlookup hsingle hall hlist obj).symm⟩

/-! ## The created row keeps its name -/

def NamesRow (c : Cache) (obj : ObjectRef) : Prop :=
  ∀ r, c.get? obj = some r → ObjectRef.identify? r.toJson = some obj

namespace NamesRow

theorem of_same (h : c.NamesRow obj) (hobjects : ∀ r, d.get? obj = some r →
      ∃ old, c.get? obj = some old ∧ ∀ key ∈ identityFields, r.get? key = old.get? key) :
    d.NamesRow obj := by
  intro r hr
  obtain ⟨old, hold, hsame⟩ := hobjects r hr
  exact (ObjectRef.identify?_congr hsame).trans (h old hold)

theorem of_objects (h : c.NamesRow obj) (hobjects : d.objects = c.objects) : d.NamesRow obj := by
  intro r hr
  rw [get?_eq, hobjects] at hr
  exact h r hr

theorem applyToField (h : c.NamesRow obj) (o : ObjectRef) {field : String}
    (hfield : field ∉ identityFields) (u : FieldUpdate) : (c.applyToField o field u).NamesRow obj := by
  refine h.of_same fun r hr => ?_
  rw [get?_eq, get?_applyToField] at hr
  obtain ⟨old, hold, rfl⟩ := Option.map_eq_some_iff.1 hr
  refine ⟨old, hold, fun key hkey => ?_⟩
  have hne : key ≠ field := ne_of_mem_of_not_mem hkey hfield
  split
  · cases u with
    | keep => rfl
    | set v => exact SortedMap.get?_insert_of_ne old hne v
    | delete => exact SortedMap.get?_erase_of_ne old hne
  · rfl

theorem modifyField (h : c.NamesRow obj) (o : ObjectRef) {field : String}
    (hfield : field ∉ identityFields) (change : Json → FieldUpdate) :
    (c.modifyField o field change).2.NamesRow obj := by
  rw [Cache.modifyField]
  split
  · exact h
  · exact h.applyToField o hfield _

theorem op (h : c.NamesRow obj) {op : Op} (hop : op.Patches) : (op.run c).NamesRow obj := by
  cases op with
  | writeRoot field args data =>
    -- Only `null` is written at the root.
    have hnull : data = .null := hop
    subst hnull
    exact h.of_objects rfl
  | writeField o field v =>
    have hnone : c.storeEntities v = c := by
      rw [storeEntities, Json.entities_of_isScalar hop.2]
      rfl
    rw [Op.run, Cache.writeField, hnone]
    split
    · exact h.applyToField o hop.1 (.set v.normalized)
    · exact h
  | modifyField o field change => exact h.modifyField o hop.1 change
  | evictField o field => exact h.modifyField o hop _
  | modifyRoot field change => exact h.of_objects (sameStore_modifyRoot c field change).objects
  | evictRoot field => exact h.of_objects (sameStore_evictRoot c field).objects
  | evictObject o =>
    -- A record that is left is the same record.
    refine h.of_same fun r hr => ⟨r, ?_, fun _ _ => rfl⟩
    rw [Op.run, get?_eq, get?_evictObject] at hr
    split at hr
    · cases hr
    · exact hr
  | collect =>
    refine h.of_same fun r hr => ⟨r, ?_, fun _ _ => rfl⟩
    rw [Op.run, get?_eq, get?_collect] at hr
    split at hr
    · exact hr
    · cases hr
  | _ => exact hop.elim

theorem plan (h : c.NamesRow obj) {plan : Plan} (hplan : plan.Sound) (options : Options)
    (now : String) : (plan.run options now c).NamesRow obj :=
  (patched_plan hplan options now c).keeps (P := fun c => c.NamesRow obj) (fun _ _ hop hc => hc.op hop) h

end NamesRow

/-! ## The look-up -/

def lookUp (c : Cache) (obj : ObjectRef) (lookup : Document) : ReadOutcome :=
  c.readQuery lookup (some (.object [("id", .string obj.id)]))

/-- The answer is the stored row, or the fields of it that were selected. -/
def ShowsRow (c : Cache) (obj : ObjectRef) (v : Json) : Prop :=
  ∃ r, c.get? obj = some r ∧ ObjectRef.identify? r.toJson = some obj ∧
    (v = r.toJson ∨ ∃ selected, c.readSelected r.entries selected = some v)

/-- The entry of the look-up leads to no other row: it refers to this one or to nothing. -/
def LeadsNowhereElse (c : Cache) (obj : ObjectRef) (w : Json) : Prop :=
  w = obj.toReference ∨ c.canRead w = false

theorem source?_lookup (hpolicy : c.policies.root lookup.rootField = some (.readReference obj.typename)) :
    c.source? lookup.rootField (some (.object [("id", .string obj.id)])) =
      ((c.root.get? (lookupName obj lookup)).filter c.canRead).or
        (if c.contains obj then some obj.toReference else none) := by
  have hfallback : c.fallback? obj.typename (some (.object [("id", .string obj.id)])) =
      if c.contains obj then some obj else none := rfl
  rw [source?, hpolicy]
  simp only [hfallback, lookupName]
  congr 1
  split <;> rfl

theorem readValue_row (hrow : c.NamesRow obj) (hobj : c.contains obj = true) {parent : Option Typename}
    {field : String} {shape : Shape} {v : Json}
    (hv : c.readValue parent field obj.toReference shape = some v) : c.ShowsRow obj v := by
  obtain ⟨r, hr⟩ := Option.isSome_iff_exists.1 hobj
  refine ⟨r, hr, hrow r hr, ?_⟩
  have huntracked : c.readUntracked parent field obj.toReference = some r.toJson := by
    rw [readUntracked_of_not_array rfl, ObjectRef.referenceId?_toReference]
    simp only [hr]
  cases shape with
  | leaf =>
    rw [readValue_leaf, huntracked] at hv
    exact .inl (Option.some.inj hv).symm
  | list element =>
    rw [readValue_list_of_not_array rfl, huntracked] at hv
    exact .inl (Option.some.inj hv).symm
  | object selected =>
    rw [readValue_toReference, hr] at hv
    exact .inr ⟨selected, hv⟩

theorem eq_null_of_readValue {w : Json} (hcan : c.canRead w = true) {parent : Option Typename}
    {field : String} {shape : Shape} (h : c.readValue parent field w shape = some .null) : w = .null := by
  cases w with
  | array items =>
    -- A list is read as a list.
    cases shape with
    | list element =>
      rw [readValue] at h
      obtain ⟨out, -, hout⟩ := Option.map_eq_some_iff.1 h
      cases hout
    | leaf | object =>
      rw [readValue, readUntracked] at h
      obtain ⟨out, -, hout⟩ := Option.map_eq_some_iff.1 h
      cases hout
  | object fields =>
    -- An object that is stored or stands in place is read as an object.
    have hrecord : c.readUntracked parent field (.object fields) ≠ some .null := by
      rw [readUntracked_of_not_array rfl]
      cases hid : referenceId? (.object fields) with
      | none => simp
      | some id =>
        obtain ⟨r, hr⟩ := Option.isSome_iff_exists.1 (canRead_iff.1 hcan id hid)
        simp [hr, Record.toJson]
    cases shape with
    | leaf => exact absurd (readValue_leaf.symm.trans h) hrecord
    | list element => exact absurd ((readValue_list_of_not_array rfl).symm.trans h) hrecord
    | object selected =>
      have hselected (stored : Json.Fields) : c.readSelected stored selected ≠ some .null := by
        rw [readSelected]
        simp
      rw [readValue] at h
      cases hid : referenceId? (.object fields) with
      | none =>
        rw [hid] at h
        exact absurd h (hselected _)
      | some id =>
        obtain ⟨r, hr⟩ := Option.isSome_iff_exists.1 (canRead_iff.1 hcan id hid)
        simp only [hid, hr] at h
        exact absurd h (hselected _)
  | null => rfl
  | bool | number | string => cases shape <;> simp [readValue, readUntracked, referenceId?] at h

theorem lookUp_of_source (row : ObjectRef) {r : Record} (selected : List (String × Shape))
    (hsource : c.source? lookup.rootField (some (.object [("id", .string obj.id)])) =
      some row.toReference)
    (hshape : c.selections.get? (lookupName obj lookup) = some (.object selected))
    (hrow : c.objects.get? row.cacheId = some r) :
    c.lookUp obj lookup = .ofOption (c.readSelected r.entries selected) := by
  rw [lookupName] at hshape
  rw [lookUp, readQuery, readRoot_eq, hsource, hshape, Option.bind_some, Option.getD_some,
    readValue_toReference, hrow]

section

variable (hpolicy : c.policies.root lookup.rootField = some (.readReference obj.typename))
include hpolicy

theorem lookUp_eq_null_iff :
    c.lookUp obj lookup = .hit .null ↔ c.root.get? (lookupName obj lookup) = some .null := by
  constructor
  · intro h
    obtain ⟨w, hw, hread⟩ := readRoot_eq_hit h
    rw [source?_lookup hpolicy] at hw
    rcases Option.or_eq_some_iff.1 hw with hstored | ⟨-, hfallback⟩
    · obtain ⟨hroot, hcan⟩ := Option.filter_eq_some_iff.1 hstored
      rwa [eq_null_of_readValue hcan hread] at hroot
    · obtain ⟨hobj, hw⟩ := Option.ite_none_right_eq_some.1 hfallback
      have hcan : c.canRead w = true := by
        rw [← Option.some.inj hw, canRead_toReference, hobj]
      rw [eq_null_of_readValue hcan hread] at hw
      cases hw
  · intro h
    have hsource : c.source? lookup.rootField (some (.object [("id", .string obj.id)])) = some .null := by
      rw [source?_lookup hpolicy, h]
      rfl
    have hread (shape : Shape) : c.readValue none lookup.rootField .null shape = some .null := by
      cases shape <;> simp [readValue, readUntracked, referenceId?]
    rw [lookUp, readQuery, readRoot_eq, hsource, Option.bind_some, hread]
    rfl

theorem lookUp_shows (hrow : c.NamesRow obj)
    (hentry : ∀ w ∈ c.root.get? (lookupName obj lookup), c.LeadsNowhereElse obj w) :
    c.lookUp obj lookup = .missing ∨ ∃ v, c.lookUp obj lookup = .hit v ∧ c.ShowsRow obj v := by
  cases hread : c.lookUp obj lookup with
  | missing => exact .inl rfl
  | hit v =>
    obtain ⟨w, hw, hv⟩ := readRoot_eq_hit hread
    rw [source?_lookup hpolicy] at hw
    have hself : w = obj.toReference ∧ c.contains obj = true := by
      rcases Option.or_eq_some_iff.1 hw with hstored | ⟨-, hfallback⟩
      · obtain ⟨hroot, hcan⟩ := Option.filter_eq_some_iff.1 hstored
        rcases hentry w hroot with rfl | hgone
        · exact ⟨rfl, canRead_iff.1 hcan _ obj.referenceId?_toReference⟩
        · rw [hgone] at hcan
          cases hcan
      · obtain ⟨hobj, hw⟩ := Option.ite_none_right_eq_some.1 hfallback
        exact ⟨(Option.some.inj hw).symm, hobj⟩
    obtain ⟨rfl, hobj⟩ := hself
    exact .inr ⟨v, rfl, readValue_row hrow hobj hv⟩

end

/-! ## After the create -/

theorem root_lookup_policy {family : Family} (hlookup : (Impact.of family).findQuery = some lookup)
    (htype : obj.typename = family.typename) :
    Policies.standard.root lookup.rootField = some (.readReference obj.typename) := by
  rw [htype]
  cases family <;> cases hlookup <;> rfl

theorem policies_op {op : Op} (hop : op.Patches) (c : Cache) : (op.run c).policies = c.policies := by
  cases op with
  | writeRoot field args data =>
    have hnull : data = .null := hop
    subst hnull
    rfl
  | writeField o field v =>
    have hwritten := (sameRoot_storeEntities c v).trans
      (sameRoot_applyToField (c.storeEntities v) o field (.set v.normalized)).1
    rw [Op.run, Cache.writeField]
    split
    · exact hwritten.policies
    · rfl
  | modifyField o field change => exact (sameRoot_modifyField c o field change).1.policies
  | evictField o field => exact (sameRoot_modifyField c o field _).1.policies
  | modifyRoot field change => exact (sameStore_modifyRoot c field change).policies
  | evictRoot field => exact (sameStore_evictRoot c field).policies
  | evictObject o => exact (sameRoot_evictObject c o).policies
  | collect => exact (sameRoot_collect c).policies
  | _ => exact hop.elim

theorem policies_plan {plan : Plan} (hplan : plan.Sound) (options : Options) (now : String) (c : Cache) :
    (plan.run options now c).policies = c.policies :=
  (patched_plan hplan options now c).keeps (P := fun d => d.policies = c.policies)
    (fun _ d hop hd => (policies_op hop d).trans hd) rfl

/-- After a create, the look-up of the new row answers `null` just where it did before. Where its entry was
absent, refers to the row or leads to nothing, it shows the row or is missing. -/
theorem created_row_looked_up {c : Cache} (hpolicies : c.policies = .standard) (options : Options)
    (now : String) {m : Mutation} {family : Family} (hcreated : m.kind.created? = some family)
    (hlookup : (Impact.of family).findQuery = some lookup) {fields : Json.Fields}
    (htype : obj.typename = family.typename) (hfields : Assoc.Ordered fields)
    (hreturns : Returns fields obj) :
    ((c.applyMutation options now m (some (.object fields))).2.lookUp obj lookup = .hit .null ↔
        c.root.get? (lookupName obj lookup) = some .null) ∧
      ((∀ w ∈ c.root.get? (lookupName obj lookup),
          (c.applyMutation options now m (some (.object fields))).2.LeadsNowhereElse obj w) →
        (c.applyMutation options now m (some (.object fields))).2.lookUp obj lookup = .missing ∨
          ∃ v, (c.applyMutation options now m (some (.object fields))).2.lookUp obj lookup = .hit v ∧
            (c.applyMutation options now m (some (.object fields))).2.ShowsRow obj v) := by
  obtain ⟨hall, hsingle⟩ := Impact.isLookup_findQuery family lookup hlookup
  have haccepts : m.kind.accepts (.object fields) = true := by
    cases m <;> first | rfl | cases hcreated
  have hsubject : m.kind.subject.typename? = some obj.typename := by
    rw [htype]
    cases m <;> cases hcreated <;> rfl
  have happlied : (c.applyMutation options now m (some (.object fields))).2 =
      Plan.run options now (c.writeResult m.kind.subject (.object fields)) (m.plan (.object fields)) := by
    rw [applyMutation, Option.filter_some, if_pos haccepts]
  rw [happlied]
  have hsound := m.plan_sound (.object fields)
  have hwritten := sameRoot_writeResult c m.kind.subject (.object fields)
  obtain ⟨r, hr, hname⟩ := hreturns.identify?_stored hfields hsubject c
  -- What the plan is run on matters only through the row and the entries.
  generalize c.writeResult m.kind.subject (.object fields) = d at *
  have hentry : (Plan.run options now d (m.plan (.object fields))).root.get? (lookupName obj lookup) =
      c.root.get? (lookupName obj lookup) := by
    have hdelete := m.plan_deletesNothing hcreated (.object fields)
    have hplan : (Plan.run options now d (m.plan (.object fields))).entry (lookupName obj lookup) =
        d.entry (lookupName obj lookup) := entry_lookup_plan hall hsingle hsound hdelete options now d
    exact congrArg Prod.fst (hplan.trans (hwritten.entry _))
  have hrow : (Plan.run options now d (m.plan (.object fields))).NamesRow obj := by
    refine NamesRow.plan (fun r' hr' => ?_) hsound options now
    rw [hr] at hr'
    exact Option.some.inj hr' ▸ hname
  have hpolicy : (Plan.run options now d (m.plan (.object fields))).policies.root lookup.rootField =
      some (.readReference obj.typename) := by
    rw [policies_plan hsound, hwritten.policies, hpolicies]
    exact root_lookup_policy hlookup htype
  rw [← hentry]
  exact ⟨lookUp_eq_null_iff hpolicy, lookUp_shows hpolicy hrow⟩

def tagLookup : Option Json := some (.object [("id", .string "1")])

def newTag : Json.Fields := [("id", .string "1"), ("name", .string "a")]

def lostTag : Cache :=
  (new .standard).run [
    .writeRoot "findTag" tagLookup (.object [
      ("__typename", .string "Tag"), ("id", .string "1"), ("name", .string "b")]),
    .evictObject ⟨.tag, "1"⟩]

def newTagRead : Json :=
  .object [("__typename", .string "Tag"), ("id", .string "1"), ("name", .string "a")]

/-- The look-up of a tag that is stored again shows it as it was returned. -/
theorem lost_tag_looked_up :
    lostTag.policies = .standard ∧ MutationKind.tagCreate.created? = some .tag ∧
      (Impact.of .tag).findQuery = some .findTag ∧ Assoc.Ordered newTag ∧
      Returns newTag ⟨.tag, "1"⟩ ∧
      (∀ w ∈ lostTag.root.get? (lookupName ⟨.tag, "1"⟩ .findTag),
        (lostTag.applyMutation {} "" .tagCreate (some (.object newTag))).2.LeadsNowhereElse
          ⟨.tag, "1"⟩ w) ∧
      (lostTag.applyMutation {} "" .tagCreate (some (.object newTag))).2.lookUp ⟨.tag, "1"⟩ .findTag =
        .hit newTagRead ∧
      ∃ v, (lostTag.applyMutation {} "" .tagCreate (some (.object newTag))).2.lookUp ⟨.tag, "1"⟩
        .findTag = .hit v ∧
        (lostTag.applyMutation {} "" .tagCreate (some (.object newTag))).2.ShowsRow ⟨.tag, "1"⟩ v := by
  have hfields : Assoc.Ordered newTag := List.pairwise_pair.2 (by decide)
  have hreturns : Returns newTag ⟨.tag, "1"⟩ := ⟨rfl, fun t ht => by cases ht⟩
  have hroot : lostTag.root.get? (lookupName ⟨.tag, "1"⟩ .findTag) = some (reference "Tag:1") := by
    decide +kernel
  have hentry : ∀ w ∈ lostTag.root.get? (lookupName ⟨.tag, "1"⟩ .findTag),
      (lostTag.applyMutation {} "" .tagCreate (some (.object newTag))).2.LeadsNowhereElse
        ⟨.tag, "1"⟩ w := by
    intro w hw
    rw [hroot] at hw
    exact .inl (Option.some.inj hw).symm
  -- The cache is put aside before the read is evaluated, so that only its record is looked at.
  have hread : (lostTag.applyMutation {} "" .tagCreate (some (.object newTag))).2.lookUp ⟨.tag, "1"⟩
      .findTag = .hit newTagRead := by
    rw [lookUp_of_source ⟨.tag, "1"⟩ [("id", .leaf), ("name", .leaf)]
      (r := SortedMap.ofList [("__typename", .string "Tag"), ("id", .string "1"), ("name", .string "a")])
      (by decide +kernel) (by decide +kernel) (by decide +kernel)]
    generalize (lostTag.applyMutation {} "" .tagCreate (some (.object newTag))).2 = d
    cbv
  have htype : (ObjectRef.mk .tag "1").typename = Family.tag.typename := rfl
  obtain ⟨-, hshown⟩ := created_row_looked_up (c := lostTag) rfl {} "" (m := .tagCreate) rfl rfl htype
    hfields hreturns
  rcases hshown hentry with hmissing | hshows
  · rw [hread] at hmissing
    cases hmissing
  · exact ⟨rfl, rfl, rfl, hfields, hreturns, hentry, hread, hshows⟩

def unknownTag : Cache := (new .standard).run [
  .writeRoot "allTags" none (.array []), .writeRoot "findTag" tagLookup .null]

def misfiledTag : Cache := (new .standard).run [
  .writeRoot "findTag" tagLookup (.object [("__typename", .string "Tag"), ("id", .string "2")])]

/-- A look-up that had found nothing before the tag was created still finds nothing, with the tag stored.
One that had found another tag still finds that one. -/
theorem answered_lookup_survives_create :
    unknownTag.policies = .standard ∧
      (unknownTag.applyMutation {} "" .tagCreate (some (.object newTag))).1 = .applied ∧
      (unknownTag.applyMutation {} "" .tagCreate (some (.object newTag))).2.contains ⟨.tag, "1"⟩ =
        true ∧
      (unknownTag.applyMutation {} "" .tagCreate (some (.object newTag))).2.lookUp ⟨.tag, "1"⟩
        .findTag = .hit .null ∧
      misfiledTag.policies = .standard ∧
      (misfiledTag.applyMutation {} "" .tagCreate (some (.object newTag))).1 = .applied ∧
      (misfiledTag.applyMutation {} "" .tagCreate (some (.object newTag))).2.lookUp ⟨.tag, "1"⟩
        .findTag = .hit (.object [("__typename", .string "Tag"), ("id", .string "2")]) := by
  have hnull : (unknownTag.applyMutation {} "" .tagCreate (some (.object newTag))).2.lookUp ⟨.tag, "1"⟩
      .findTag = .hit .null := (lookUp_eq_null_iff (by decide +kernel)).2 (by decide +kernel)
  refine ⟨rfl, by decide +kernel, by decide +kernel, hnull, rfl, by decide +kernel, ?_⟩
  rw [lookUp_of_source ⟨.tag, "2"⟩ [("id", .leaf)]
    (r := SortedMap.ofList [("__typename", .string "Tag"), ("id", .string "2")])
    (by decide +kernel) (by decide +kernel) (by decide +kernel)]
  generalize (misfiledTag.applyMutation {} "" .tagCreate (some (.object newTag))).2 = d
  cbv

end Cache

end MediaCache
