import MediaCache.Proofs.Store.CollectedReads
import MediaCache.Proofs.Store.Growth
import MediaCache.Proofs.Update.Evicted
import MediaCache.Proofs.Update.EvictedReads
import MediaCache.Proofs.Update.Runs

/-!
# Reads after a file is assigned to a scene

The scene lives on, but it is evicted like one that was deleted, and so are the files of all scenes. A read
that cannot do without them is missing. Any other read finds its answer with the scene gone from the
lists, though the server still has it there.
-/

namespace MediaCache

namespace Cache

variable {c d : Cache} {id : String} {slot : Slot}

/-! ## What a read still comes to -/

def others (id : String) (found : List Resolution) : List Visit :=
  (found.filter fun r => r.id != id).map (·.toVisit)

theorem mem_others {found : List Resolution} {visit : Visit} :
    visit ∈ others id found ↔ ∃ r ∈ found, r.id ≠ id ∧ r.toVisit = visit := by
  simp [others, and_assoc]

@[simp]
theorem others_append {l m : List Resolution} : others id (l ++ m) = others id l ++ others id m := by
  rw [others, List.filter_append, List.map_append, others, others]

@[simp]
theorem others_map_under {step : PathStep} {l : List Resolution} :
    others id (l.map (.under step)) = others id l := by
  simp [others, List.filter_map, Function.comp_def, Resolution.under]

theorem others_outsideItems {found : Json → List Resolution} {position : Nat} {items : List Json} :
    others id (outsideItems found position items) = items.flatMap fun v => others id (found v) := by
  induction items generalizing position with
  | nil => rfl
  | cons v rest ih => rw [outsideItems, others_append, others_map_under, ih, List.flatMap_cons]

theorem flatMap_filter_canRead {found : Json → List Visit}
    (h : ∀ v, c.canRead v = false → found v = []) (items : List Json) :
    (items.filter c.canRead).flatMap found = items.flatMap found := by
  induction items with
  | nil => rfl
  | cons v rest ih =>
    rw [List.filter_cons, List.flatMap_cons]
    split
    · rw [List.flatMap_cons, ih]
    · rw [h v (Bool.eq_false_iff.2 ‹_›), ih, List.nil_append]

theorem visitsUntrackedItems_eq (c : Cache) (items : List Json) :
    c.visitsUntrackedItems items = items.flatMap c.visitsUntracked := by
  induction items with
  | nil => rw [visitsUntrackedItems, List.flatMap_nil]
  | cons v rest ih => rw [visitsUntrackedItems, ih, List.flatMap_cons]

namespace Forgets

theorem visitHere_eq (h : Forgets id c d) {v : Json} {shape : Shape} :
    d.visitHere v shape = others id (c.outsideHere slot v shape) := by
  unfold outsideHere visitHere
  cases hid : referenceId? v with
  | none => rfl
  | some j =>
    by_cases hj : j = id
    · subst hj
      have hgone : d.objects.contains j = false := by
        rw [SortedMap.contains, h.get?_self, Option.isSome_none]
      simp only [hgone]
      cases c.objects.contains j <;> simp [others]
    · have hsame : d.objects.contains j = c.objects.contains j := by
        rw [SortedMap.contains, h.get?_of_ne hj, SortedMap.contains]
      simp only [hsame]
      cases c.objects.contains j <;> simp [others, hj]

theorem visits_of_not_canRead (h : Forgets id c d) {v : Json} (hv : c.canRead v = false) (shape : Shape) :
    d.visits v shape = [] := by
  refine List.eq_nil_iff_forall_not_mem.2 fun visit hvisit => ?_
  have hread := canRead_of_mem_visits hvisit
  rw [h.canRead, hv] at hread
  cases hread

mutual

theorem visitsUntracked_eq (h : Forgets id c d) : ∀ (v : Json) {slot : Slot},
    d.visitsUntracked v = others id (c.outsideUntracked slot v)
  | .array items, slot => by
    have hunread (v : Json) (hv : c.canRead v = false) : d.visitsUntracked v = [] := by
      rw [← visits_leaf]
      exact h.visits_of_not_canRead hv .leaf
    rw [visitsUntracked, visitsUntrackedItems_eq, outsideUntracked, outsideUntrackedItems_eq,
      others_outsideItems, ← flatMap_filter_canRead hunread]
    exact List.flatMap_congr fun v hv => h.visitsUntracked_item items v (List.mem_filter.1 hv).1
  | .object _, slot | .null, slot | .bool _, slot | .number _, slot | .string _, slot => by
    rw [visitsUntracked_of_not_array rfl, outsideUntracked_of_not_array rfl]
    exact h.visitHere_eq

theorem visitsUntracked_item (h : Forgets id c d) : ∀ (items : List Json), ∀ v ∈ items,
    d.visitsUntracked v = others id (c.outsideUntracked .element v)
  | v :: rest, w, hw => by
    rcases List.mem_cons.1 hw with hfirst | hw
    · rw [hfirst]
      exact h.visitsUntracked_eq v
    · exact h.visitsUntracked_item rest w hw

end

mutual

/-- The object is gone, and so is all that was visited inside it. -/
theorem visits_eq (h : Forgets id c d) : ∀ (shape : Shape) {slot : Slot} {v : Json},
    d.visits v shape = others id (c.outside id slot v shape)
  | .leaf, slot, v => by
    rw [visits_leaf, outside_leaf]
    exact h.visitsUntracked_eq v
  | .object selected, slot, v => by
    cases v with
    | object fields =>
      rw [visits, outside]
      cases hid : referenceId? (.object fields) with
      | none => exact h.visitsOfFields_eq selected _
      | some j =>
        by_cases hj : j = id
        · -- This is the object itself: nothing is read here any more, and what was visited in it is dropped.
          subst hj
          simp only [h.get?_self, if_true]
          cases c.objects.get? j <;> simp [others]
        · simp only [h.get?_of_ne hj, if_neg hj]
          cases c.objects.get? j with
          | none => rfl
          | some record =>
            simp only [h.visitsOfFields_eq selected (typenameOf? record.entries)]
            simp [others, hj]
    | _ =>
      rw [visits_object_of_not_object rfl, outside_object_of_not_object rfl]
      exact h.visitsUntracked_eq _
  | .list element, slot, v => by
    cases v with
    | array items =>
      -- Items that lead nowhere are visited in neither cache.
      rw [visits, outside, others_outsideItems,
        ← flatMap_filter_canRead fun v hv => h.visits_of_not_canRead hv element]
      exact List.flatMap_congr fun v _ => h.visits_eq element
    | _ =>
      rw [visits_list_of_not_array rfl, outside_list_of_not_array rfl]
      exact h.visitHere_eq

theorem visitsOfFields_eq (h : Forgets id c d) : ∀ (selected : List (String × Shape))
    (parent : Option Typename) {fields : Json.Fields},
      d.visitsOfFields fields selected = others id (c.outsideFields id parent fields selected)
  | [], parent, fields => by
    rw [visitsOfFields, outsideFields]
    rfl
  | (key, shape) :: rest, parent, fields => by
    rw [visitsOfFields, outsideFields, others_append, h.visitsOfFields_eq rest parent]
    congr 1
    cases Assoc.get? key fields with
    | none => rfl
    | some v =>
      simp only [others_map_under]
      exact h.visits_eq shape

end

theorem visitsBy_eq {obj : ObjectRef} (h : Forgets obj.cacheId c d) (hsame : SameRoot c d) {field : String}
    {args : Option Json} (hasks : c.AsksFor obj field args) {w : Json}
    (hsource : c.source? field args = some w) :
    d.visitsBy field args = others obj.cacheId (c.outsideBy obj.cacheId field args) := by
  rw [visitsBy, outsideBy, hsource, hsame.selections]
  rcases h.source?_cases hsame.root hasks hsource with hstays | ⟨hgone, rfl, t, hpolicy⟩
  · rw [hstays]
    exact h.visits_eq _
  · have hin : c.objects.contains obj.cacheId = true :=
      canRead_iff.1 (canRead_of_source? hpolicy hsource) _ obj.referenceId?_toReference
    simp only [hgone, outside_self obj.referenceId?_toReference hin]
    simp [others]

end Forgets

namespace Trimmed

variable {lost : String → String → Bool} (h : Trimmed lost c d)
  (htype : ∀ id, lost id "__typename" = false)
include h htype

theorem grows : d.Grows c := by
  refine ⟨h.sameRoot.policies.symm, fun id r hr => ?_, fun id _ hgone => ?_⟩
  · rw [h.objects] at hr
    obtain ⟨s, hs, rfl⟩ := Option.map_eq_some_iff.1 hr
    refine ⟨s, hs, fun key v hv => ?_, ?_⟩
    · rw [Record.get?_without] at hv
      split at hv
      · cases hv
      · exact hv
    · rw [Record.get?_without, htype, if_neg (by decide)]
  · rw [h.objects] at hgone
    exact Option.map_eq_none_iff.1 hgone

theorem readRoot_missing {field : String} {args : Option Json}
    (hmissing : c.readRoot field args = .missing) : d.readRoot field args = .missing := by
  cases hread : d.readRoot field args with
  | missing => rfl
  | hit v =>
    have hhit := (h.grows htype).readRoot_hits (h.sameRoot.entry _).symm
      (congrArg ReadOutcome.isMissing hread)
    rw [hmissing] at hhit
    cases hhit

end Trimmed

/-! ## The mutation -/

def sceneFiles : TypeFields := .ofRows [(.scene, ["files"])]

def isScene (id : String) : Bool := (ObjectRef.ofCacheId? id).any (·.typename == .scene)

theorem lost_sceneFiles_iff {id field : String} :
    (Loss.ofTypes sceneFiles none).fields id field = true ↔ isScene id = true ∧ field = "files" := by
  have hcovers (t : Typename) : sceneFiles.covers t field = true ↔ t = .scene ∧ field = "files" := by
    rw [sceneFiles, TypeFields.covers_ofRows]
    simp [eq_comm (a := t)]
  simp only [Loss.ofTypes, isScene]
  cases ObjectRef.ofCacheId? id with
  | none => simp
  | some obj => simp [hcovers]

theorem sceneFiles_keeps_typename (id : String) :
    (Loss.ofTypes sceneFiles none).fields id "__typename" = false := by
  rw [← Bool.not_eq_true, lost_sceneFiles_iff]
  exact fun h => absurd h.2 (by decide)

/-- A read that cannot do without what is evicted. -/
inductive NeedsAssigned (c : Cache) (scene : ObjectRef) (field : String) (args : Option Json) : Prop where
  | listing (h : field = Document.findScenes.rootField)
  | held (h : ∃ r ∈ c.resolvedTo scene.cacheId field args, ¬r.Dispensable c)
  | files (h : ∃ r ∈ c.outsideBy scene.cacheId field args,
      r.id ≠ scene.cacheId ∧ isScene r.id = true ∧ r.toVisit.Selects "files")

/-- The scene is only where a read can do without it, and of no other scene the files may be shown. -/
structure SparesAssigned (c : Cache) (scene : ObjectRef) (field : String) (args : Option Json) : Prop where
  elsewhere : field ≠ Document.findScenes.rootField
  dispensable : ∀ r ∈ c.resolvedTo scene.cacheId field args, r.Dispensable c
  files : ∀ r ∈ c.outsideBy scene.cacheId field args,
    r.id ≠ scene.cacheId → isScene r.id = true → r.toVisit.PassesOver "files"

theorem not_answers_findScenes {field : String} (hfield : IsFieldName field)
    (helsewhere : field ≠ Document.findScenes.rootField) {args : Option Json} :
    ¬Answers [.findScenes] (storeFieldName field args) := by
  rintro ⟨doc, hdoc, hname⟩
  rw [List.mem_singleton.1 hdoc, baseFieldName_storeFieldName hfield] at hname
  exact helsewhere hname.symm

/-- The scene is gone, and so are the files of all others. The queries are still there. -/
def withoutAssigned (c : Cache) (scene : ObjectRef) : Cache :=
  ((c.evictObject scene).2.evictTypeFields sceneFiles none).2

theorem run_assignFile (options : Options) (now : String) (c : Cache) (sceneId : String) :
    Plan.run options now c (.assignFile sceneId) =
      ((c.withoutAssigned ⟨.scene, sceneId⟩).evictQueries [.findScenes] options).2 := rfl

section

variable {scene : ObjectRef} {field : String} {args : Option Json} (hc : c.Indexed)
  (hshapes : c.Records Shape.Sorted) (hasks : c.AsksFor scene field args) {v : Json}
  (hread : c.readRoot field args = .hit v)

theorem trimmed_withoutAssigned (hc : c.Indexed) (scene : ObjectRef) :
    Trimmed (Loss.ofTypes sceneFiles none).fields (c.evictObject scene).2 (c.withoutAssigned scene) :=
  trimmed_evictTypeFields (hc.evictObject scene) sceneFiles none

include hasks hread in
theorem visitsBy_evictObject : (c.evictObject scene).2.visitsBy field args =
    others scene.cacheId (c.outsideBy scene.cacheId field args) := by
  obtain ⟨w, hsource, -⟩ := readRoot_eq_hit hread
  exact (Forgets.of_evictObject c scene).visitsBy_eq (sameRoot_evictObject c scene) hasks hsource

include hc hshapes hasks hread

theorem readRoot_withoutAssigned_missing (hneeds : c.NeedsAssigned scene field args)
    (helsewhere : field ≠ Document.findScenes.rootField) :
    (c.withoutAssigned scene).readRoot field args = .missing := by
  have htrimmed := trimmed_withoutAssigned hc scene
  cases hneeds with
  | listing h => exact absurd h helsewhere
  | held h =>
    exact htrimmed.readRoot_missing sceneFiles_keeps_typename
      ((readRoot_evictObject hshapes hasks hread).2 h)
  | files h =>
    obtain ⟨r, hr, hid, hscene, hselects⟩ := h
    refine htrimmed.readRoot_eq_missing ⟨r.toVisit, ?_, "files", lost_sceneFiles_iff.2 ⟨hscene, rfl⟩,
      hselects⟩
    rw [visitsBy_evictObject hasks hread, mem_others]
    exact ⟨r, hr, hid, rfl⟩

theorem readRoot_withoutAssigned (hspares : c.SparesAssigned scene field args) :
    (c.withoutAssigned scene).readRoot field args =
      .hit (v.cleared (c.placesOf scene.cacheId field args).contains) := by
  rw [(trimmed_withoutAssigned hc scene).readRoot_eq sceneFiles_keeps_typename]
  · exact (readRoot_evictObject hshapes hasks hread).1 hspares.dispensable
  · intro visit hvisit k hlost
    rw [visitsBy_evictObject hasks hread, mem_others] at hvisit
    obtain ⟨r, hr, hid, rfl⟩ := hvisit
    obtain ⟨hscene, rfl⟩ := lost_sceneFiles_iff.1 hlost
    exact hspares.files r hr hid hscene

theorem source?_withoutAssigned (hspares : c.SparesAssigned scene field args) {w : Json}
    (hsource : c.source? field args = some w) : (c.withoutAssigned scene).source? field args = some w := by
  obtain ⟨w', hw', -⟩ := readRoot_eq_hit (readRoot_withoutAssigned hc hshapes hasks hread hspares)
  rw [(trimmed_withoutAssigned hc scene).source?] at hw' ⊢
  rcases (Forgets.of_evictObject c scene).source?_cases (sameRoot_evictObject c scene).root hasks
    hsource with hstays | ⟨hgone, -⟩
  · exact hstays
  · -- The read would miss where its source is gone, but it is a hit.
    rw [hgone] at hw'
    cases hw'

end

section

variable {sceneId : String} {field : String} {args : Option Json} (hc : c.Indexed)
  (hshapes : c.Records Shape.Sorted) (hfield : IsFieldName field)
  (hasks : c.AsksFor ⟨.scene, sceneId⟩ field args) {v : Json} (hread : c.readRoot field args = .hit v)
  (options : Options) (now : String)
include hc hshapes hfield hasks hread

theorem readRoot_assignFile_missing
    (hlist : ∀ t, c.policies.root Document.findScenes.rootField ≠ some (.readReference t))
    (hneeds : c.NeedsAssigned ⟨.scene, sceneId⟩ field args) :
    (Plan.run options now c (.assignFile sceneId)).readRoot field args = .missing := by
  rw [run_assignFile]
  by_cases helsewhere : field = Document.findScenes.rootField
  · -- The list of all scenes is dropped, and nothing takes its place.
    subst helsewhere
    have hpolicies :
        ((c.withoutAssigned ⟨.scene, sceneId⟩).evictQueries [.findScenes] options).2.policies =
          c.policies := by
      rw [(sameRoot_evictQueries _ _ options).policies, (sameStore_dropQueries _ _).policies,
        (trimmed_withoutAssigned hc _).sameRoot.policies, (sameRoot_evictObject c _).policies]
    refine readRoot_of_no_entry (entry_evictQueries_of_answers options ⟨_, List.mem_cons_self, ?_⟩) ?_
    · rw [baseFieldName_storeFieldName hfield]
    · rwa [hpolicies]
  · exact readRoot_evictQueries_missing (not_answers_findScenes hfield helsewhere) options
      (readRoot_withoutAssigned_missing hc hshapes hasks hread hneeds helsewhere)

theorem readRoot_assignFile {w : Json} (hentry : c.root.get? (storeFieldName field args) = some w)
    (hsource : c.source? field args = some w) (hspares : c.SparesAssigned ⟨.scene, sceneId⟩ field args) :
    (Plan.run options now c (.assignFile sceneId)).readRoot field args =
      .hit (v.cleared (c.placesOf (ObjectRef.cacheId ⟨.scene, sceneId⟩) field args).contains) := by
  have hroot : (c.withoutAssigned ⟨.scene, sceneId⟩).root = c.root := by
    rw [(trimmed_withoutAssigned hc _).sameRoot.root, (sameRoot_evictObject c _).root]
  rw [run_assignFile, readRoot_evictQueries (not_answers_findScenes hfield hspares.elsewhere) options
    (hroot ▸ hentry) (source?_withoutAssigned hc hshapes hasks hread hspares hsource)]
  exact readRoot_withoutAssigned hc hshapes hasks hread hspares

end

theorem applyMutation_assignFile {options : Options} {now sceneId fileId : String} {result : Json}
    (hresult : ∀ w ∈ returnedValues result, w.isObject = false)
    (hd : c.applyMutation options now (.sceneAssignFile sceneId fileId) (some result) = (.applied, d)) :
    d = Plan.run options now c (.assignFile sceneId) := by
  have hwritten : c.writeResult (Mutation.sceneAssignFile sceneId fileId).kind.subject result = c := by
    refine writeResult_keeps (P := (· = c)) (fun _ _ hin _ => ?_) rfl
    cases hresult _ hin
  unfold Cache.applyMutation at hd
  split at hd
  · cases hd
  · rename_i accepted haccepted
    obtain ⟨hsame, -⟩ := Option.filter_eq_some_iff.1 haccepted
    cases hsame
    rw [hwritten] at hd
    exact (congrArg Prod.snd hd).symm

/-- A file is assigned to a scene, and the server returns no object for it. A read that cannot do without
the scene, or shows the files of another one, is missing afterwards. A read that only lists the scene finds
what it found without it. -/
theorem assigned_scene_reads {c d : Cache} (hc : c.Reachable) (hshapes : c.Records Shape.Sorted)
    (hlist : ∀ t, c.policies.root Document.findScenes.rootField ≠ some (.readReference t))
    {doc : Document} (hdoc : IsFieldName doc.rootField) {args : Option Json} {v : Json}
    {sceneId fileId : String} (hasks : c.AsksFor ⟨.scene, sceneId⟩ doc.rootField args)
    (hread : c.readQuery doc args = .hit v) {options : Options} {now : String} {result : Json}
    (hresult : ∀ w ∈ returnedValues result, w.isObject = false)
    (hd : c.applyMutation options now (.sceneAssignFile sceneId fileId) (some result) = (.applied, d)) :
    (c.NeedsAssigned ⟨.scene, sceneId⟩ doc.rootField args → d.readQuery doc args = .missing) ∧
    ∀ w, c.root.get? (storeFieldName doc.rootField args) = some w →
      c.source? doc.rootField args = some w → c.SparesAssigned ⟨.scene, sceneId⟩ doc.rootField args →
        d.readQuery doc args = .hit (v.cleared
          (c.placesOf (ObjectRef.cacheId ⟨.scene, sceneId⟩) doc.rootField args).contains) := by
  rw [applyMutation_assignFile hresult hd]
  exact ⟨readRoot_assignFile_missing hc.indexed hshapes hdoc hasks hread options now hlist,
    fun w hentry hsource => readRoot_assignFile hc.indexed hshapes hdoc hasks hread options now hentry
      hsource⟩

def listedScene (id : String) : Json := .object [("__typename", .string "Scene"), ("id", .string id)]

def shownScene (id : String) : Json :=
  .object [("__typename", .string "Scene"), ("files", .array []), ("id", .string id)]

def film (scenes : List Json) : Json :=
  .object [("__typename", .string "Movie"), ("id", .string "1"), ("scenes", .array scenes)]

def still (scenes : List Json) : Json :=
  .object [("__typename", .string "Gallery"), ("id", .string "1"), ("scenes", .array scenes)]

def firstOne : Option Json := some (.object [("id", .string "1")])

/-- A film with two scenes, and a gallery that shows their files. -/
def filmCache : Cache := (new .standard).run [
  .writeRoot "findMovie" firstOne (film [listedScene "1", listedScene "2"]),
  .writeRoot "findGallery" firstOne (still [shownScene "1", shownScene "2"])]

def stillShape : Shape :=
  .object [("id", .leaf), ("scenes", .list (.object [("files", .list .leaf), ("id", .leaf)]))]

def recutCache : Outcome × Cache :=
  filmCache.applyMutation {} "" (.sceneAssignFile "1" "5") (some (.bool true))

theorem sorted_filmCache : filmCache.Records Shape.Sorted := by
  refine ((records_new .standard Shape.Sorted).writeRoot "findMovie" firstOne
    (Shape.sorted_ofData _ ?_)).writeRoot "findGallery" firstOne (Shape.sorted_ofData _ ?_)
  · decide +kernel
  · decide +kernel

theorem source?_film :
    filmCache.source? Document.findMovie.rootField firstOne = some (reference "Movie:1") := by
  decide +kernel

theorem readQuery_film :
    filmCache.readQuery .findMovie firstOne = .hit (film [listedScene "1", listedScene "2"]) := by
  have hshape : (filmCache.selections.get? (storeFieldName Document.findMovie.rootField firstOne)).getD
      .leaf = .object [("id", .leaf), ("scenes", .list idOnly)] := by decide +kernel
  have hvalue : filmCache.readValue none Document.findMovie.rootField (reference "Movie:1")
      (.object [("id", .leaf), ("scenes", .list idOnly)]) =
        some (film [listedScene "1", listedScene "2"]) := by cbv
  exact readQuery_of_readValue source?_film hshape hvalue

theorem sparesAssigned_film :
    filmCache.SparesAssigned ⟨.scene, "1"⟩ Document.findMovie.rootField firstOne :=
  ⟨by decide, by decide +kernel, by decide +kernel⟩

/-- The gallery must be fetched again. The film has lost the scene that was given a file. -/
theorem recut_reads :
    filmCache.Reachable ∧ filmCache.Records Shape.Sorted ∧
      (∀ t, filmCache.policies.root Document.findScenes.rootField ≠ some (.readReference t)) ∧
      IsFieldName Document.findMovie.rootField ∧ IsFieldName Document.findGallery.rootField ∧
      filmCache.AsksFor ⟨.scene, "1"⟩ Document.findMovie.rootField firstOne ∧
      filmCache.AsksFor ⟨.scene, "1"⟩ Document.findGallery.rootField firstOne ∧
      filmCache.readQuery .findMovie firstOne = .hit (film [listedScene "1", listedScene "2"]) ∧
      filmCache.readQuery .findGallery firstOne = .hit (still [shownScene "1", shownScene "2"]) ∧
      (∀ w ∈ returnedValues (.bool true), w.isObject = false) ∧ recutCache.1 = .applied ∧
      filmCache.NeedsAssigned ⟨.scene, "1"⟩ Document.findGallery.rootField firstOne ∧
      filmCache.SparesAssigned ⟨.scene, "1"⟩ Document.findMovie.rootField firstOne ∧
      recutCache.2.readQuery .findGallery firstOne = .missing ∧
      recutCache.2.readQuery .findMovie firstOne = .hit (film [listedScene "2"]) := by
  have hreach : filmCache.Reachable := ⟨_, _, rfl⟩
  have hlist (t : Typename) :
      filmCache.policies.root Document.findScenes.rootField ≠ some (.readReference t) := nofun
  have hmovie : IsFieldName Document.findMovie.rootField := by decide +kernel
  have hgallery : IsFieldName Document.findGallery.rootField := by decide +kernel
  have hsource : filmCache.source? Document.findGallery.rootField firstOne =
      some (reference "Gallery:1") := by decide +kernel
  have hasksMovie : filmCache.AsksFor ⟨.scene, "1"⟩ Document.findMovie.rootField firstOne :=
    asksFor_of_source? source?_film (by decide +kernel)
  have hasksGallery : filmCache.AsksFor ⟨.scene, "1"⟩ Document.findGallery.rootField firstOne :=
    asksFor_of_source? hsource (by decide +kernel)
  have hread : filmCache.readQuery .findGallery firstOne =
      .hit (still [shownScene "1", shownScene "2"]) := by
    have hshape : (filmCache.selections.get? (storeFieldName Document.findGallery.rootField
        firstOne)).getD .leaf = stillShape := by decide +kernel
    have hvalue : filmCache.readValue none Document.findGallery.rootField (reference "Gallery:1")
        stillShape = some (still [shownScene "1", shownScene "2"]) := by cbv
    exact readQuery_of_readValue hsource hshape hvalue
  have hresult : ∀ w ∈ returnedValues (.bool true), w.isObject = false := by decide
  have hd : filmCache.applyMutation {} "" (.sceneAssignFile "1" "5") (some (.bool true)) =
      (.applied, recutCache.2) := rfl
  have hneeds : filmCache.NeedsAssigned ⟨.scene, "1"⟩ Document.findGallery.rootField firstOne :=
    .files (by decide +kernel)
  have hmissing := (assigned_scene_reads hreach sorted_filmCache hlist hgallery hasksGallery hread hresult
    hd).1 hneeds
  have hshort := (assigned_scene_reads hreach sorted_filmCache hlist hmovie hasksMovie readQuery_film
    hresult hd).2 _ (by decide +kernel) source?_film sparesAssigned_film
  refine ⟨hreach, sorted_filmCache, hlist, hmovie, hgallery, hasksMovie, hasksGallery, readQuery_film,
    hread, hresult, rfl, hneeds, sparesAssigned_film, hmissing, hshort.trans (congrArg _ ?_)⟩
  decide +kernel

/-- A film is read with both its scenes, and after one of them was given a file with the other one only. -/
theorem assigned_scene_hidden :
    recutCache.1 = .applied ∧
      filmCache.readQuery .findMovie firstOne = .hit (film [listedScene "1", listedScene "2"]) ∧
      recutCache.2.readQuery .findMovie firstOne = .hit (film [listedScene "2"]) := by
  have hindexed : filmCache.Indexed := Reachable.indexed ⟨_, _, rfl⟩
  have hasks : filmCache.AsksFor ⟨.scene, "1"⟩ Document.findMovie.rootField firstOne :=
    asksFor_of_source? source?_film (by decide +kernel)
  have hd : filmCache.applyMutation {} "" (.sceneAssignFile "1" "5") (some (.bool true)) =
      (.applied, recutCache.2) := rfl
  refine ⟨rfl, readQuery_film, ?_⟩
  rw [applyMutation_assignFile (by decide) hd, readQuery, readRoot_assignFile hindexed
    sorted_filmCache (by decide +kernel) hasks readQuery_film {} "" (w := reference "Movie:1")
    (by decide +kernel) source?_film sparesAssigned_film]
  decide +kernel

end Cache

end MediaCache
