import MediaCache.Proofs.Store.Runs
import MediaCache.Proofs.Update.Ended
import MediaCache.Proofs.Update.Invalidation
import MediaCache.Proofs.Update.Tables

/-!
# Invalidations in any order

The answers to mutations arrive in no fixed order. For mutations that only invalidate the order makes
no difference to the cache, though objects are collected in between: collection after each of them
leaves what one collection at the end would leave. Sums are taken modulo 2^64 here.
-/

namespace MediaCache

/-- The mutation only invalidates. Counters take a value over from the server, and plays and activity
add to fields that the other mutations evict. -/
def MutationKind.invalidates (kind : MutationKind) : Bool :=
  !kind.isCounter && kind != .sceneIncrementPlayCount && kind != .sceneSaveActivity

/-! ## Plans of invalidations -/

def Step.Invalidates (step : Step) : Prop := ∃ i, step.invalidation? = some i ∧ i.entries.Sound

def Step.isEvictQueries : Step → Bool
  | evictQueries _ => true
  | _ => false

namespace Plan

def Quiet (plan : Plan) : Prop := ∀ step ∈ plan, step.Invalidates ∧ step.isEvictQueries = false

def Invalidates (plan : Plan) : Prop :=
  ∃ quiet docs, Quiet quiet ∧ (∀ doc ∈ docs, doc.IsList) ∧ plan = quiet ++ [.evictQueries docs]

variable {plan more : Plan}

theorem quiet_nil : Quiet [] := by
  intro step hstep
  cases hstep

theorem Quiet.append (h : Quiet plan) (h' : Quiet more) : Quiet (plan ++ more) := by
  intro step hstep
  rcases List.mem_append.1 hstep with hin | hin
  · exact h step hin
  · exact h' step hin

theorem quiet_singleton {step : Step} (h : step.Invalidates) (hnot : step.isEvictQueries = false) :
    Quiet [step] := by
  intro s hs
  obtain rfl := List.mem_singleton.1 hs
  exact ⟨h, hnot⟩

theorem quiet_evictTypeFields (fields : TypeFields) (ignore : Option ObjectRef) :
    Quiet [.evictTypeFields fields ignore] := quiet_singleton ⟨_, rfl, trivial⟩ rfl

theorem quiet_evictField (obj : ObjectRef) (field : String) : Quiet [.evictField obj field] :=
  quiet_singleton ⟨_, rfl, trivial⟩ rfl

theorem quiet_evictObject (obj : ObjectRef) : Quiet [.evictObject obj] :=
  quiet_singleton ⟨_, rfl, trivial⟩ rfl

theorem quiet_addToStatIf (stat : Option String) {delta : Double} (h : delta.isWhole = true) :
    Quiet (addToStatIf stat delta) := by
  cases stat with
  | none => exact quiet_nil
  | some stat => exact quiet_singleton ⟨_, rfl, h⟩ rfl

theorem quiet_deleteObjects (typename : Typename) (ids : List String) {lookup : Option Document}
    (h : ∀ doc ∈ lookup, doc ∈ Document.all ∧ doc.singleObject.isSome = true) :
    Quiet (deleteObjects typename ids lookup) := by
  intro step hstep
  obtain ⟨id, -, rfl⟩ := List.mem_map.1 hstep
  cases lookup with
  | none => exact ⟨⟨_, rfl, trivial⟩, rfl⟩
  | some doc => exact ⟨⟨_, rfl, h doc rfl⟩, rfl⟩

theorem Quiet.invalidates (h : Quiet plan) {docs : List Document} (hdocs : ∀ doc ∈ docs, doc.IsList) :
    Invalidates (plan ++ [.evictQueries docs]) := ⟨plan, docs, h, hdocs, rfl⟩

theorem Invalidates.append (h : Quiet plan) (h' : Invalidates more) : Invalidates (plan ++ more) := by
  obtain ⟨quiet, docs, hquiet, hdocs, rfl⟩ := h'
  exact ⟨plan ++ quiet, docs, h.append hquiet, hdocs, by rw [List.append_assoc]⟩

/-! ### By family -/

theorem invalidates_evictQueries {docs : List Document} (h : ∀ doc ∈ docs, doc.IsList) :
    Invalidates [.evictQueries docs] := quiet_nil.invalidates h

theorem invalidates_update (family : Family) (ignore : Option ObjectRef) :
    Invalidates (update family ignore) :=
  (quiet_evictTypeFields _ ignore).invalidates (Impact.isList_queries family)

theorem invalidates_create (family : Family) (keepOwn : Bool) :
    Invalidates (create family (.bool true) keepOwn) := by
  have happend : appendIf (Impact.of family).listQuery (resultObject? family.typename (.bool true)) =
      [] := by
    cases (Impact.of family).listQuery <;> rfl
  unfold create
  simp only [happend, List.nil_append]
  exact ((quiet_evictTypeFields _ _).invalidates (Impact.isList_queriesOnCreate family)).append
    (quiet_addToStatIf _ (Double.isWhole_ofInt 1))

/-- As many rows are taken off a count as objects are gone. -/
theorem quiet_countDown (stat : Option String) (ids : List String) :
    Quiet (addToStatIf stat (Double.ofInt ids.length).neg) := by
  apply quiet_addToStatIf
  rw [Double.isWhole_neg, Double.isWhole_ofInt]

theorem invalidates_destroy (family : Family) (ids : List String) :
    Invalidates (destroy family ids) := by
  unfold destroy
  simp only [List.append_assoc]
  have hend := (quiet_evictTypeFields (Impact.of family).fieldsOnDestroy none).invalidates
    (Impact.isList_queriesOnDestroy family)
  exact (hend.append (quiet_countDown _ ids)).append
    (quiet_deleteObjects _ ids (Impact.isLookup_findQuery family))

theorem invalidates_createScene (fileIds : List String) :
    Invalidates (createScene (.bool true) fileIds) := by
  unfold createScene
  refine Invalidates.append (quiet_addToStatIf _ (Double.isWhole_ofInt 1)) ?_
  have hend (fields : TypeFields) (ignore : Option ObjectRef) :=
    (quiet_evictTypeFields fields ignore).invalidates (Impact.isList_queriesOnCreate .scene)
  split
  · exact hend _ none
  · exact hend _ _

theorem invalidates_assignFile (sceneId : String) : Invalidates (assignFile sceneId) :=
  ((quiet_evictTypeFields _ none).invalidates (by decide)).append (quiet_evictObject ⟨.scene, sceneId⟩)

theorem invalidates_mergeScenes (source : List String) : Invalidates (mergeScenes source) := by
  have hdocs : ∀ doc ∈ (Impact.of .scene).queries ++ [.stats], doc.IsList := by decide
  exact ((quiet_evictTypeFields _ none).invalidates hdocs).append
    (quiet_deleteObjects _ source (by decide))

theorem invalidates_markerChanged (sceneId : String) : Invalidates (markerChanged sceneId) :=
  (invalidates_update .sceneMarker none).append (quiet_evictField ⟨.scene, sceneId⟩ "scene_markers")

theorem invalidates_destroyMarker (id : String) : Invalidates (destroyMarker id) :=
  (invalidates_update .sceneMarker none).append (quiet_evictObject ⟨.sceneMarker, id⟩)

theorem invalidates_destroyChapter (id : String) : Invalidates (destroyChapter id) :=
  (invalidates_update .galleryChapter none).append (quiet_evictObject ⟨.galleryChapter, id⟩)

theorem invalidates_galleryImages (galleryId : String) (imageIds : List String) :
    Invalidates (galleryImages galleryId imageIds) := by
  have himages : Quiet (imageIds.map fun id => .evictField ⟨.image, id⟩ "galleries") := by
    intro step hstep
    obtain ⟨id, -, rfl⟩ := List.mem_map.1 hstep
    exact ⟨⟨_, rfl, trivial⟩, rfl⟩
  exact ((quiet_evictField ⟨.gallery, galleryId⟩ "image_count").append himages).invalidates (by decide)

theorem invalidates_createStudio (parentId : Option String) :
    Invalidates (createStudio (.bool true) parentId) := by
  have hlist : appendIf (Impact.of .studio).listQuery (resultObject? .studio (.bool true)) = [] := rfl
  have hcount := quiet_addToStatIf (Impact.of .studio).createdStat (Double.isWhole_ofInt 1)
  unfold createStudio
  simp only [hlist, List.nil_append]
  cases parentId with
  | none => exact (hcount.append quiet_nil).invalidates (Impact.isList_queriesOnCreate .studio)
  | some id =>
    exact (hcount.append (quiet_evictField _ _)).invalidates (Impact.isList_queriesOnCreate .studio)

theorem invalidates_mergeTags (source : List String) (destination : String) :
    Invalidates (mergeTags source destination) := by
  unfold mergeTags
  simp only [List.append_assoc]
  have hend := (quiet_evictTypeFields (Impact.of .tag).fieldsOnChange
    (some ⟨.tag, destination⟩)).invalidates (Impact.isList_queries .tag)
  exact (hend.append (quiet_countDown _ source)).append
    (quiet_deleteObjects _ source (Impact.isLookup_findQuery .tag))

theorem invalidates_destroyFilter (id : String) : Invalidates (destroyFilter id) :=
  (quiet_deleteObjects _ [id] (by decide)).invalidates (by decide)

theorem invalidates_deleteFiles (ids : List String) : Invalidates (deleteFiles ids) := by
  have hfiles : Quiet (ids.flatMap fun id => Interface.baseFile.possibleTypes.map fun t =>
      .evictObject ⟨t, id⟩) := by
    intro step hstep
    obtain ⟨id, -, hin⟩ := List.mem_flatMap.1 hstep
    obtain ⟨t, -, rfl⟩ := List.mem_map.1 hin
    exact ⟨⟨_, rfl, trivial⟩, rfl⟩
  exact hfiles.invalidates (by decide)

end Plan

theorem Mutation.plan_invalidates {m : Mutation} (h : m.kind.invalidates = true) :
    (m.plan (.bool true)).Invalidates := by
  cases m
  case sceneCreate fileIds => exact Plan.invalidates_createScene fileIds
  case sceneAssignFile sceneId fileId => exact Plan.invalidates_assignFile sceneId
  case sceneMerge destination source => exact Plan.invalidates_mergeScenes source
  case sceneMarkerCreate sceneId | sceneMarkerUpdate id sceneId =>
    exact Plan.invalidates_markerChanged sceneId
  case sceneMarkerDestroy id => exact Plan.invalidates_destroyMarker id
  case galleryChapterDestroy id => exact Plan.invalidates_destroyChapter id
  case addGalleryImages galleryId imageIds | removeGalleryImages galleryId imageIds =>
    exact Plan.invalidates_galleryImages galleryId imageIds
  case studioCreate parentId => exact Plan.invalidates_createStudio parentId
  case tagsMerge source destination => exact Plan.invalidates_mergeTags source destination
  case destroySavedFilter id => exact Plan.invalidates_destroyFilter id
  case deleteFiles ids => exact Plan.invalidates_deleteFiles ids
  case movieCreate | galleryCreate | galleryChapterCreate | performerCreate | tagCreate =>
    exact Plan.invalidates_create _ _
  case sceneDestroy | scenesDestroy | imagesDestroy | movieDestroy | moviesDestroy | galleryDestroy |
      performerDestroy | performersDestroy | studioDestroy | studiosDestroy | tagDestroy |
      tagsDestroy =>
    exact Plan.invalidates_destroy _ _
  case sceneUpdate | bulkSceneUpdate | scenesUpdate | imageUpdate | bulkImageUpdate | movieUpdate |
      bulkMovieUpdate | galleryUpdate | bulkGalleryUpdate | galleryChapterUpdate | performerUpdate |
      bulkPerformerUpdate | studioUpdate | tagUpdate =>
    exact Plan.invalidates_update _ _
  case sceneIncrementO | sceneDecrementO | sceneResetO | imageIncrementO | imageDecrementO |
      imageResetO | sceneIncrementPlayCount | sceneSaveActivity =>
    cases h
  -- What is left evicts queries and nothing else.
  all_goals exact Plan.invalidates_evictQueries (by decide)

theorem Plan.Invalidates.steps {plan : Plan} (h : plan.Invalidates) :
    ∀ step ∈ plan, step.Invalidates := by
  obtain ⟨quiet, docs, hquiet, hdocs, rfl⟩ := h
  intro step hstep
  rcases List.mem_append.1 hstep with hin | hin
  · exact (hquiet step hin).1
  · obtain rfl := List.mem_singleton.1 hin
    exact ⟨_, rfl, hdocs⟩

/-! ## Runs without collection -/

namespace Cache

/-- The numbers in the cached statistics are integers of 64 bits. -/
def IntegerStats (c : Cache) : Prop :=
  ∀ e ∈ c.rootEntries Document.stats.rootField, e.2.IntegerMembers

instance (c : Cache) : Decidable c.IntegerStats := inferInstanceAs (Decidable (∀ _ ∈ _, _))

theorem IntegerStats.entries {c : Cache} (h : c.IntegerStats) (name : String) :
    IntegerEntry name (c.entry name) := by
  intro hstats v hv
  exact h (name, v) (mem_rootEntries_iff.2 ⟨hstats, hv⟩)

def runBare (c : Cache) (plan : Plan) : Cache := plan.run .bare "" c

@[simp]
theorem runBare_cons (c : Cache) (step : Step) (plan : Plan) :
    c.runBare (step :: plan) = (step.run .bare "" c).runBare plan := rfl

@[simp]
theorem runBare_append (c : Cache) (plan more : Plan) :
    c.runBare (plan ++ more) = (c.runBare plan).runBare more := List.foldl_append

theorem indexed_runBare {plan : Plan} (hplan : ∀ step ∈ plan, step.Invalidates) {c : Cache}
    (hc : c.Indexed) : (c.runBare plan).Indexed := by
  induction plan generalizing c with
  | nil => exact hc
  | cons step rest ih =>
    obtain ⟨i, hi, -⟩ := hplan step List.mem_cons_self
    exact ih (fun s hs => hplan s (List.mem_cons_of_mem _ hs)) (Step.takes_invalidation hi "" hc).indexed

/-- Invalidations may be carried out in any order. -/
theorem runBare_perm {plan plan' : Plan} (h : plan.Perm plan')
    (hplan : ∀ step ∈ plan, step.Invalidates) {c : Cache} (hc : c.Indexed)
    (hstats : ∀ name, IntegerEntry name (c.entry name)) : c.runBare plan = c.runBare plan' := by
  induction h generalizing c with
  | nil => rfl
  | cons step _ ih =>
    obtain ⟨i, hi, hsound⟩ := hplan step List.mem_cons_self
    have htakes := Step.takes_invalidation hi "" hc
    rw [runBare_cons, runBare_cons]
    exact ih (fun s hs => hplan s (List.mem_cons_of_mem _ hs)) htakes.indexed
      (htakes.integerEntries hsound hstats)
  | swap s t rest =>
    obtain ⟨i, hi, hisound⟩ := hplan s (by simp)
    obtain ⟨j, hj, hjsound⟩ := hplan t (by simp)
    have hs := Step.takes_invalidation hi "" hc
    have ht := Step.takes_invalidation hj "" hc
    have hts := Step.takes_invalidation hi "" ht.indexed
    have hst := Step.takes_invalidation hj "" hs.indexed
    simp only [runBare_cons]
    rw [Invalidation.takes_comm hjsound hisound hstats ht hts hs hst]
  | trans h₁ _ ih₁ ih₂ =>
    rw [ih₁ hplan hc hstats]
    exact ih₂ (fun s hs => hplan s (h₁.mem_iff.2 hs)) hc hstats

/-- A run does not depend on objects that cannot be reached. -/
theorem pruned_runBare {plan : Plan} (hplan : ∀ step ∈ plan, step.Invalidates) {c d : Cache}
    (h : Pruned d c) (hc : c.Indexed) : Pruned (d.runBare plan) (c.runBare plan) := by
  induction plan generalizing c d with
  | nil => exact h
  | cons step rest ih =>
    obtain ⟨i, hi, -⟩ := hplan step List.mem_cons_self
    have hstep := Step.takes_invalidation hi "" hc
    have hstep' := Step.takes_invalidation hi "" h.indexed
    exact ih (fun s hs => hplan s (List.mem_cons_of_mem _ hs)) (hstep.pruned hstep' h) hstep.indexed

/-! ## Runs with collection -/

def settle (c : Cache) (options : Options) : Cache :=
  if options.collectAfterEvict then c.collect.2 else c

theorem run_of_quiet {plan : Plan} (h : plan.Quiet) (options : Options) (now : String) (c : Cache) :
    plan.run options now c = c.runBare plan := by
  induction plan generalizing c with
  | nil => rfl
  | cons step rest ih =>
    have hrest : Plan.Quiet rest := fun s hs => h s (List.mem_cons_of_mem _ hs)
    have hstep : step.run options now c = step.run .bare "" c := by
      obtain ⟨⟨i, hi, -⟩, hnot⟩ := h step List.mem_cons_self
      cases step with
      | evictQueries docs => cases hnot
      | _ => first | rfl | cases hi
    rw [runBare_cons, ← ih hrest, ← hstep]
    rfl

/-- A plan of invalidations collects once, after all of them. -/
theorem run_of_invalidates {plan : Plan} (h : plan.Invalidates) (options : Options) (now : String)
    (c : Cache) : plan.run options now c = (c.runBare plan).settle options := by
  obtain ⟨quiet, docs, hquiet, -, rfl⟩ := h
  have hsplit : Plan.run options now c (quiet ++ [.evictQueries docs]) =
      ((Plan.run options now c quiet).evictQueries docs options).2 := List.foldl_append
  have hlast (d : Cache) : d.runBare [.evictQueries docs] = d.dropQueries docs :=
    evictQueries_eq d docs .bare
  rw [hsplit, run_of_quiet hquiet, evictQueries_eq, runBare_append, hlast]
  rfl

/-! ### Sums on the way -/

end Cache

def Step.addition? : Step → Option (String × Double)
  | addToStat stat delta => some (stat, delta)
  | _ => none

namespace Plan

def additions (plan : Plan) : List (String × Double) := plan.filterMap Step.addition?

@[simp]
theorem additions_nil : additions [] = [] := rfl

@[simp]
theorem additions_cons (step : Step) (rest : Plan) :
    additions (step :: rest) = step.addition?.toList ++ rest.additions := by
  rw [additions, List.filterMap_cons]
  cases step.addition? <;> rfl

@[simp]
theorem additions_append (plan more : Plan) :
    additions (plan ++ more) = plan.additions ++ more.additions := List.filterMap_append

@[simp]
theorem additions_appendIf (list : Option Document) (obj : Option ObjectRef) :
    (appendIf list obj).additions = [] := by
  unfold appendIf
  split <;> rfl

@[simp]
theorem additions_deleteObjects (typename : Typename) (ids : List String) (lookup : Option Document) :
    (deleteObjects typename ids lookup).additions = [] := by
  refine List.filterMap_eq_nil_iff.2 fun step hstep => ?_
  obtain ⟨id, -, rfl⟩ := List.mem_map.1 hstep
  cases lookup <;> rfl

@[simp]
theorem additions_addToStatIf (stat : Option String) (delta : Double) :
    (addToStatIf stat delta).additions = (stat.map (·, delta)).toList := by
  cases stat <;> rfl

@[simp]
theorem additions_create (family : Family) (result : Json) (keepOwn : Bool) :
    (create family result keepOwn).additions =
      ((Impact.of family).createdStat.map (·, Double.ofInt 1)).toList := by
  simp [create, Step.addition?]

@[simp]
theorem additions_destroy (family : Family) (ids : List String) :
    (destroy family ids).additions =
      ((Impact.of family).destroyedStat.map (·, (Double.ofInt ids.length).neg)).toList := by
  simp [destroy, Step.addition?]

end Plan

namespace Cache

theorem fits_of_invalidates {step : Step} (h : step.Invalidates) (c : Cache) :
    step.fits c = (step.addition?.all fun e => c.statFits e.1 e.2) := by
  obtain ⟨i, hi, -⟩ := h
  cases step <;> first | rfl | cases hi

theorem entry_of_quiet {step : Step} (h : step.Invalidates) (hnot : step.isEvictQueries = false)
    (hadds : step.addition? = none) {c : Cache} (hc : c.Indexed) {name : String}
    (hname : baseFieldName name = Document.stats.rootField) :
    (step.run .bare "" c).entry name = c.entry name := by
  obtain ⟨i, hi, hsound⟩ := h
  rw [(Step.takes_invalidation hi "" hc).entries name]
  cases step <;> cases hi
  case addToStat stat delta => cases hadds
  case evictQueries docs => cases hnot
  case deleteObject obj lookup =>
    refine if_neg ?_
    rintro rfl
    exact rootField_ne_lookupName hsound.1 hsound.2 (by decide) rfl obj hname
  all_goals rfl

theorem statFits_of_quiet {step : Step} (h : step.Invalidates) (hnot : step.isEvictQueries = false)
    (hadds : step.addition? = none) {c : Cache} (hc : c.Indexed) {stat : String} {delta : Double}
    (hfits : c.statFits stat delta = true) : (step.run .bare "" c).statFits stat delta = true := by
  refine statFits_iff.2 fun name v hname hv => statFits_iff.1 hfits name v hname ?_
  have hroot := congrArg Prod.fst (entry_of_quiet h hnot hadds hc hname)
  exact hroot.symm.trans hv

/-- A plan that adds to one number at most ends when that number has room at the start. -/
theorem run?_of_quiet {plan : Plan} (h : plan.Quiet) (options : Options) (now : String) {c : Cache}
    (hc : c.Indexed) (hone : plan.additions.length ≤ 1)
    (hfits : ∀ e ∈ plan.additions, c.statFits e.1 e.2 = true) :
    plan.run? options now c = some (c.runBare plan) := by
  induction plan generalizing c with
  | nil => rfl
  | cons step rest ih =>
    obtain ⟨hstep, hrest⟩ := List.forall_mem_cons.1 h
    obtain ⟨i, hi, -⟩ := hstep.1
    have hindexed := (Step.takes_invalidation hi "" hc).indexed
    have hbare : step.run options now c = step.run .bare "" c :=
      run_of_quiet (List.forall_mem_singleton.2 hstep) options now c
    rw [Plan.additions_cons] at hone hfits
    rw [Plan.run?_cons, Step.run?, fits_of_invalidates hstep.1, hbare]
    cases hadds : step.addition? with
    | none =>
      -- The step adds nothing, so the room for what is to come stays.
      rw [hadds] at hone hfits
      exact ih hrest hindexed hone fun e he =>
        statFits_of_quiet hstep.1 hstep.2 hadds hc (hfits e he)
    | some e =>
      rw [hadds] at hone hfits
      -- The one addition is this one, so nothing has to fit after it.
      have hnil : Plan.additions rest = [] :=
        List.length_eq_zero_iff.1 (Nat.le_zero.1 (Nat.le_of_succ_le_succ hone))
      rw [Option.all_some, if_pos (hfits e List.mem_cons_self)]
      exact ih hrest hindexed (by rw [hnil]; exact Nat.zero_le 1) (by rw [hnil]; exact List.forall_mem_nil _)

theorem run?_of_invalidates {plan : Plan} (h : plan.Invalidates) (options : Options) (now : String)
    {c : Cache} (hc : c.Indexed) (hone : plan.additions.length ≤ 1)
    (hfits : ∀ e ∈ plan.additions, c.statFits e.1 e.2 = true) :
    plan.run? options now c = some (plan.run options now c) := by
  obtain ⟨quiet, docs, hquiet, -, rfl⟩ := h
  have hadditions : Plan.additions (quiet ++ [.evictQueries docs]) = quiet.additions := by
    simp [Step.addition?]
  rw [hadditions] at hone hfits
  have hend : Plan.run options now c (quiet ++ [.evictQueries docs]) =
      ((Plan.run options now c quiet).evictQueries docs options).2 := List.foldl_append
  rw [Plan.run?_append, run?_of_quiet hquiet options now hc hone hfits, hend, run_of_quiet hquiet]
  rfl

/-! ### Mutations -/

def applyAll (c : Cache) (options : Options) (answered : List (String × Mutation)) : Cache :=
  answered.foldl (fun c e => (c.applyMutation options e.1 e.2 (some (.bool true))).2) c

def steps (answered : List (String × Mutation)) : Plan :=
  (answered.map (·.2)).flatMap fun m => m.plan (.bool true)

theorem accepts_true {kind : MutationKind} (h : kind.invalidates = true) :
    kind.accepts (.bool true) = true := by
  unfold MutationKind.invalidates at h
  unfold MutationKind.accepts
  cases hcounter : kind.isCounter with
  | true =>
    rw [hcounter] at h
    cases h
  | false => rfl

theorem applyMutation_true {m : Mutation} (h : m.kind.invalidates = true) (c : Cache)
    (options : Options) (now : String) :
    (c.applyMutation options now m (some (.bool true))).2 =
      (c.runBare (m.plan (.bool true))).settle options := by
  rw [applyMutation, Option.filter_some, if_pos (accepts_true h)]
  exact run_of_invalidates (Mutation.plan_invalidates h) options now c

variable {answered : List (String × Mutation)}

theorem invalidates_steps (h : ∀ e ∈ answered, e.2.kind.invalidates = true) :
    ∀ step ∈ steps answered, step.Invalidates := by
  intro step hstep
  obtain ⟨m, hm, hin⟩ := List.mem_flatMap.1 hstep
  obtain ⟨e, he, rfl⟩ := List.mem_map.1 hm
  exact (Mutation.plan_invalidates (h e he)).steps step hin

@[simp]
theorem steps_cons (now : String) (m : Mutation) (rest : List (String × Mutation)) :
    steps ((now, m) :: rest) = m.plan (.bool true) ++ steps rest := rfl

theorem applyAll_without_collection (h : ∀ e ∈ answered, e.2.kind.invalidates = true)
    {options : Options} (hoptions : options.collectAfterEvict = false) (c : Cache) :
    c.applyAll options answered = c.runBare (steps answered) := by
  induction answered generalizing c with
  | nil => rfl
  | cons e rest ih =>
    obtain ⟨now, m⟩ := e
    have hfirst := applyMutation_true (h _ List.mem_cons_self) c options now
    unfold settle at hfirst
    rw [hoptions, if_neg (by simp)] at hfirst
    rw [steps_cons, runBare_append, ← hfirst, ← ih fun e he => h e (List.mem_cons_of_mem _ he)]
    rfl

/-- Collecting after every mutation leaves what collecting once, at the end, would leave. What was
collected before the first of them does not matter either. -/
theorem applyAll_with_collection (h : ∀ e ∈ answered, e.2.kind.invalidates = true)
    (hne : answered ≠ []) {options : Options} (hoptions : options.collectAfterEvict = true)
    {c d : Cache} (hpruned : Pruned d c) (hc : c.Indexed) :
    d.applyAll options answered = (c.runBare (steps answered)).collect.2 := by
  induction answered generalizing c d with
  | nil => exact absurd rfl hne
  | cons e rest ih =>
    obtain ⟨now, m⟩ := e
    have hkind := h _ List.mem_cons_self
    have hplan := (Mutation.plan_invalidates hkind).steps
    have hbare := pruned_runBare hplan hpruned hc
    have hindexed := indexed_runBare hplan hc
    have hfirst := applyMutation_true hkind d options now
    unfold settle at hfirst
    rw [if_pos hoptions, hbare.collect_eq hindexed] at hfirst
    have hall : d.applyAll options ((now, m) :: rest) =
        (d.applyMutation options now m (some (.bool true))).2.applyAll options rest := rfl
    rw [hall, hfirst, steps_cons, runBare_append]
    cases rest with
    | nil => rfl
    | cons next rest =>
      exact ih (fun e he => h e (List.mem_cons_of_mem _ he)) (List.cons_ne_nil _ _)
        (pruned_collect hindexed) hindexed

/-- Mutations that only invalidate may be answered in any order, and at any times: the cache is the
same afterwards. -/
theorem applyAll_perm {c : Cache} (hc : c.Reachable) (hstats : c.IntegerStats) (options : Options)
    {answered answered' : List (String × Mutation)}
    (hkinds : ∀ e ∈ answered, e.2.kind.invalidates = true)
    (hperm : (answered.map (·.2)).Perm (answered'.map (·.2))) :
    c.applyAll options answered = c.applyAll options answered' := by
  have hkinds' : ∀ e ∈ answered', e.2.kind.invalidates = true := by
    intro e he
    obtain ⟨f, hf, hm⟩ := List.mem_map.1 (hperm.mem_iff.2 (List.mem_map.2 ⟨e, he, rfl⟩))
    rw [← hm]
    exact hkinds f hf
  -- Without collection the steps commute.
  have hsteps : c.runBare (steps answered) = c.runBare (steps answered') :=
    runBare_perm (hperm.flatMap_right _) (invalidates_steps hkinds) hc.indexed hstats.entries
  cases hoptions : options.collectAfterEvict with
  | false =>
    rw [applyAll_without_collection hkinds hoptions, applyAll_without_collection hkinds' hoptions,
      hsteps]
  | true =>
    cases answered with
    | nil =>
      -- An empty run collects nothing.
      have : answered' = [] := by simpa using hperm
      rw [this]
    | cons e rest =>
      have hne' : answered' ≠ [] := by
        rintro rfl
        simp at hperm
      -- Collecting after each mutation leaves what collecting once at the end leaves.
      have hpruned := Pruned.refl hc.indexed
      rw [applyAll_with_collection hkinds (List.cons_ne_nil _ _) hoptions hpruned hc.indexed,
        applyAll_with_collection hkinds' hne' hoptions hpruned hc.indexed, hsteps]

end Cache

end MediaCache
