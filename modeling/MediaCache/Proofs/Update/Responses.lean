import MediaCache.Proofs.Update.Counts

/-!
# Responses may come in any order

Two orders of the same answers that both end leave the same cache. An order may not end: a row too many is
created before another one is destroyed. Where the counts have room for all rows that are created, and for
all that are lost, every order ends.
-/

namespace MediaCache

/-! ## Additions of a plan -/

/-- The plan adds to one count of rows at most, and adds what is given here. -/
def Plan.AddsOnce (plan : Plan) (added : Family → Int) : Prop :=
  plan.additions = [] ∨
    ∃ family stat delta, Family.countName? family = some stat ∧ delta.isWhole = true ∧
      plan.additions = [(stat, delta)] ∧ added family = clampInt64 delta.truncate

namespace Plan

variable {plan : Plan} {family : Family} {stat : Option String} {delta : Double} {added : Family → Int}

theorem addsOnce_of_additions (hstat : stat = none ∨ stat = family.countName?)
    (hdelta : delta.isWhole = true) (hadds : plan.additions = (stat.map (·, delta)).toList)
    (hadded : added = Pi.single family (clampInt64 delta.truncate)) : plan.AddsOnce added := by
  cases stat with
  | none => exact .inl hadds
  | some s =>
    have hname : family.countName? = some s := (hstat.resolve_left (by simp)).symm
    exact .inr ⟨family, s, delta, hname, hdelta, hadds, hadded ▸ Pi.single_eq_same _ _⟩

theorem addsOnce_of_created (hadds : plan.additions =
      ((Impact.of family).createdStat.map (·, Double.ofInt 1)).toList) :
    plan.AddsOnce (Pi.single family 1) :=
  addsOnce_of_additions (.inr (Impact.createdStat_eq family)) (Double.isWhole_ofInt 1) hadds
    (congrArg (Pi.single family) (clampInt64_ofInt (by decide)).symm)

theorem addsOnce_of_lost {ids : List String} (hadds : plan.additions =
      ((Impact.of family).destroyedStat.map (·, (Double.ofInt ids.length).neg)).toList) :
    plan.AddsOnce (Pi.single family (clampInt64 (Double.ofInt ids.length).neg.truncate)) := by
  refine addsOnce_of_additions ?_ ((Double.isWhole_neg _).trans (Double.isWhole_ofInt _)) hadds rfl
  rw [Impact.destroyedStat_eq]
  split
  · exact .inl rfl
  · exact .inr rfl

theorem AddsOnce.length_additions (h : plan.AddsOnce added) : plan.additions.length ≤ 1 := by
  rcases h with hnil | ⟨family, stat, delta, -, -, hadds, -⟩
  · rw [hnil]
    exact Nat.zero_le 1
  · rw [hadds]
    exact Nat.le_refl 1

theorem additions_eq_nil (h : ∀ step ∈ plan, step.addition? = none) : plan.additions = [] :=
  List.filterMap_eq_nil_iff.2 h

end Plan

namespace Mutation

theorem addsOnce_of_destroy {m : Mutation} {result : Json} {family : Family} {ids : List String}
    (hplan : m.plan result = .destroy family ids) (hcreated : m.kind.created? = none)
    (hdestroyed : m.destroyed = ids.map (⟨family.typename, ·⟩)) :
    (m.plan result).AddsOnce m.countChange := by
  rw [hplan, countChange_of_destroyed hcreated hdestroyed]
  exact Plan.addsOnce_of_lost (Plan.additions_destroy family ids)

theorem plan_addsOnce {m : Mutation} (h : m.kind.invalidates = true) :
    (m.plan (.bool true)).AddsOnce m.countChange := by
  cases m
  case sceneCreate fileIds =>
    rw [countChange_of_created rfl rfl]
    refine Plan.addsOnce_of_created ?_
    -- Files make a create evict more, and add nothing.
    unfold plan Plan.createScene
    dsimp only
    split <;> simp [Step.addition?]
  case studioCreate parentId =>
    rw [countChange_of_created rfl rfl]
    refine Plan.addsOnce_of_created ?_
    cases parentId <;> simp [plan, Plan.createStudio, Step.addition?]
  case movieCreate | galleryCreate | galleryChapterCreate | performerCreate | tagCreate =>
    rw [countChange_of_created rfl rfl]
    exact Plan.addsOnce_of_created (Plan.additions_create _ _ _)
  case sceneDestroy | scenesDestroy | imagesDestroy | movieDestroy | moviesDestroy | galleryDestroy |
      performerDestroy | performersDestroy | studioDestroy | studiosDestroy | tagDestroy |
      tagsDestroy =>
    exact addsOnce_of_destroy rfl rfl rfl
  case tagsMerge source destination =>
    have hlost : (Mutation.tagsMerge source destination).countChange =
        Pi.single .tag (clampInt64 (Double.ofInt source.length).neg.truncate) :=
      countChange_of_destroyed rfl rfl
    rw [hlost]
    refine Plan.addsOnce_of_lost ?_
    simp [plan, Plan.mergeTags, Step.addition?]
  case addGalleryImages galleryId imageIds | removeGalleryImages galleryId imageIds =>
    have himages : Plan.additions (imageIds.map fun id => .evictField ⟨.image, id⟩ "galleries") = [] := by
      refine Plan.additions_eq_nil fun step hstep => ?_
      obtain ⟨id, -, rfl⟩ := List.mem_map.1 hstep
      rfl
    exact .inl (by simp [plan, Plan.galleryImages, himages, Step.addition?])
  case deleteFiles ids =>
    have hfiles : Plan.additions (ids.flatMap fun id => Interface.baseFile.possibleTypes.map fun t =>
        .evictObject ⟨t, id⟩) = [] := by
      refine Plan.additions_eq_nil fun step hstep => ?_
      obtain ⟨id, -, hin⟩ := List.mem_flatMap.1 hstep
      obtain ⟨t, -, rfl⟩ := List.mem_map.1 hin
      rfl
    exact .inl (by simp [plan, Plan.deleteFiles, hfiles, Step.addition?])
  case sceneIncrementO | sceneDecrementO | sceneResetO | imageIncrementO | imageDecrementO |
      imageResetO | sceneIncrementPlayCount | sceneSaveActivity =>
    cases h
  all_goals
    -- The others only evict.
    exact .inl (by simp [plan, Plan.mergeScenes, Plan.destroyFilter, Plan.update, Plan.assignFile,
      Plan.markerChanged, Plan.destroyMarker, Plan.destroyChapter, Step.addition?])

end Mutation

/-! ## Runs of answers -/

namespace Cache

def applyAll? (c : Cache) (options : Options) (answered : List (String × Mutation)) : Option Cache :=
  answered.foldlM (fun c e => (c.applyMutation? options e.1 e.2 (some (.bool true))).map (·.2)) c

/-- Each count of rows has room for all rows of its family that are created, and for all that are lost. -/
def RoomFor (c : Cache) (mutations : List Mutation) : Prop :=
  ∀ family stat name i, Family.countName? family = some stat →
    baseFieldName name = Document.stats.rootField → c.count? name stat = some i →
      inInt64 (i + Mutation.createdIn mutations family) = true ∧
        inInt64 (i - Mutation.lostIn mutations family) = true

variable {c d : Cache} {options : Options} {answered answered' : List (String × Mutation)}

theorem applyAll?_cons (c : Cache) (options : Options) (now : String) (m : Mutation)
    (rest : List (String × Mutation)) :
    c.applyAll? options ((now, m) :: rest) =
      (c.applyMutation? options now m (some (.bool true))).bind fun next =>
        next.2.applyAll? options rest := by
  rw [applyAll?, List.foldlM_cons, Option.bind_eq_bind, Option.bind_map]
  rfl

theorem applyAll_of_applyAll? (h : c.applyAll? options answered = some d) :
    c.applyAll options answered = d := by
  induction answered generalizing c with
  | nil => exact Option.some.inj h
  | cons e rest ih =>
    obtain ⟨now, m⟩ := e
    rw [applyAll?_cons] at h
    obtain ⟨next, hnext, hrest⟩ := Option.bind_eq_some_iff.1 h
    rw [← ih hrest, ← applyMutation_of_applyMutation? hnext]
    rfl

/-- A mutation stays within the room for it and for those after it. -/
theorem RoomFor.sum {m : Mutation} {rest : List Mutation} (h : c.RoomFor (m :: rest)) {family : Family}
    (hsmall : m.lost family ≤ 2 ^ 53) {stat name : String} {i : Int}
    (hstat : family.countName? = some stat) (hname : baseFieldName name = Document.stats.rootField)
    (hi : c.count? name stat = some i) :
    inInt64 (i + m.countChange family) = true ∧
      inInt64 (i + m.countChange family + Mutation.createdIn rest family) = true ∧
        inInt64 (i + m.countChange family - Mutation.lostIn rest family) = true := by
  obtain ⟨hmost, hleast⟩ := h family stat name i hstat hname hi
  rw [Mutation.createdIn_cons] at hmost
  rw [Mutation.lostIn_cons] at hleast
  rw [Mutation.countChange_eq hsmall]
  refine ⟨?_, ?_, ?_⟩ <;> refine inInt64_between hleast hmost ?_ ?_ <;> split <;> omega

theorem RoomFor.ends {now : String} {m : Mutation} {rest : List Mutation} (h : c.RoomFor (m :: rest))
    (hc : c.Indexed) (hkind : m.kind.invalidates = true) (hsmall : ∀ family, m.lost family ≤ 2 ^ 53) :
    ∃ next, c.applyMutation? options now m (some (.bool true)) = some (.applied, next) ∧
      next.Indexed ∧ next.RoomFor rest := by
  have hadds := Mutation.plan_addsOnce hkind
  have hfits : ∀ e ∈ (m.plan (.bool true)).additions, c.statFits e.1 e.2 = true := by
    rcases hadds with hnil | ⟨family, stat, delta, hstat, hdelta, hone, hadded⟩
    · rw [hnil]
      exact List.forall_mem_nil _
    · rw [hone]
      refine List.forall_mem_singleton.2 ((statFits_iff_count? hdelta).2 fun name i hname hi => ?_)
      exact hadded ▸ (h.sum (hsmall family) hstat hname hi).1
  have hrun := run?_of_invalidates (Mutation.plan_invalidates hkind) options now hc
    hadds.length_additions hfits
  have happly : c.applyMutation? options now m (some (.bool true)) =
      some (.applied, (m.plan (.bool true)).run options now c) := by
    rw [applyMutation?, Option.filter_some, if_pos (accepts_true hkind)]
    exact congrArg (Option.map (Outcome.applied, ·)) hrun
  refine ⟨_, happly, ?_, fun family stat name i hstat hname hi => ?_⟩
  · have hindexed := hc.applyMutation options now m (some (.bool true))
    rwa [applyMutation_of_applyMutation? happly] at hindexed
  · have heffect := m.plan_tallies (.bool true) options now c _ name hname hrun
    obtain ⟨j, hj, rfl⟩ := heffect.count?_before hstat hi
    exact (h.sum (hsmall family) hstat hname hj).2

theorem RoomFor.perm {mutations mutations' : List Mutation} (h : c.RoomFor mutations)
    (hperm : mutations.Perm mutations') : c.RoomFor mutations' := by
  intro family stat name i hstat hname hi
  have hcreated : Mutation.createdIn mutations' family = Mutation.createdIn mutations family :=
    (hperm.countP_eq _).symm
  have hlost : Mutation.lostIn mutations' family = Mutation.lostIn mutations family :=
    (hperm.map _).sum_eq.symm
  rw [hcreated, hlost]
  exact h family stat name i hstat hname hi

theorem applyAll?_ends (hc : c.Indexed) (hkinds : ∀ e ∈ answered, e.2.kind.invalidates = true)
    (hsmall : ∀ m ∈ answered.map (·.2), ∀ family, m.lost family ≤ 2 ^ 53)
    (hroom : c.RoomFor (answered.map (·.2))) : ∃ d, c.applyAll? options answered = some d := by
  induction answered generalizing c with
  | nil => exact ⟨c, rfl⟩
  | cons e rest ih =>
    obtain ⟨now, m⟩ := e
    obtain ⟨hkind, hkinds⟩ := List.forall_mem_cons.1 hkinds
    rw [List.map_cons] at hsmall hroom
    obtain ⟨hfirst, hsmall⟩ := List.forall_mem_cons.1 hsmall
    obtain ⟨next, hnext, hindexed, hrest⟩ : ∃ next,
        c.applyMutation? options now m (some (.bool true)) = some (.applied, next) ∧ next.Indexed ∧
          next.RoomFor (rest.map (·.2)) :=
      hroom.ends hc hkind hfirst
    obtain ⟨d, hd⟩ := ih hindexed hkinds hsmall hrest
    exact ⟨d, by rw [applyAll?_cons, hnext, Option.bind_some, hd]⟩

/-- Mutations that only invalidate may be answered in any order, and at any times: if two orders end, the
cache is the same afterwards. Every order ends where the counts have room for what the mutations create and
for what they destroy. -/
theorem orders_agree {c : Cache} (hc : c.Reachable) (hstats : c.IntegerStats) (options : Options)
    {answered answered' : List (String × Mutation)}
    (hkinds : ∀ e ∈ answered, e.2.kind.invalidates = true)
    (hperm : (answered.map (·.2)).Perm (answered'.map (·.2))) :
    (∀ d d', c.applyAll? options answered = some d → c.applyAll? options answered' = some d' → d = d') ∧
    ((∀ m ∈ answered.map (·.2), ∀ family, m.lost family ≤ 2 ^ 53) → c.RoomFor (answered.map (·.2)) →
      ∃ d, c.applyAll? options answered = some d ∧ c.applyAll? options answered' = some d) := by
  have hagree (d d' : Cache) (hd : c.applyAll? options answered = some d)
      (hd' : c.applyAll? options answered' = some d') : d = d' := by
    rw [← applyAll_of_applyAll? hd, ← applyAll_of_applyAll? hd']
    exact applyAll_perm hc hstats options hkinds hperm
  refine ⟨hagree, fun hsmall hroom => ?_⟩
  have hkinds' : ∀ e ∈ answered', e.2.kind.invalidates = true := by
    intro e he
    obtain ⟨f, hf, hm⟩ := List.mem_map.1 (hperm.mem_iff.2 (List.mem_map.2 ⟨e, he, rfl⟩))
    exact hm ▸ hkinds f hf
  obtain ⟨d, hd⟩ := applyAll?_ends hc.indexed hkinds hsmall hroom
  obtain ⟨d', hd'⟩ := applyAll?_ends hc.indexed hkinds'
    (fun m hm => hsmall m (hperm.mem_iff.2 hm)) (hroom.perm hperm)
  exact ⟨d, hd, hagree d d' hd hd' ▸ hd'⟩

def countedTags (movies : Int) : Cache :=
  (new .standard).run [
    .writeRoot "stats" none (.object [("movie_count", .int movies), ("tag_count", .int 3)]),
    .writeRoot "findTag" (some (.object [("id", .string "1")])) (.object [
      ("__typename", .string "Tag"), ("id", .string "1"), ("parents", .array [
        .object [("__typename", .string "Tag"), ("id", .string "2")],
        .object [("__typename", .string "Tag"), ("id", .string "3")]])]),
    .writeRoot "findMovie" (some (.object [("id", .string "4")])) (.object [
      ("__typename", .string "Movie"), ("id", .string "4"), ("name", .string "a")])]

def mergedThenCreated : List (String × Mutation) := [("9", .tagsMerge ["2"] "3"), ("10", .movieCreate)]

def createdThenMerged : List (String × Mutation) := [("11", .movieCreate), ("12", .tagsMerge ["2"] "3")]

/-- The tags above are collected when the merge evicts the parents. -/
theorem merge_and_create_commute :
    (countedTags 1).Reachable ∧ (countedTags 1).IntegerStats ∧
      (countedTags 1).RoomFor (mergedThenCreated.map (·.2)) ∧ (countedTags 1).size = 4 ∧
      ∃ d, (countedTags 1).applyAll? {} mergedThenCreated = some d ∧
        (countedTags 1).applyAll? {} createdThenMerged = some d ∧ d.size = 2 := by
  have hreach : (countedTags 1).Reachable := ⟨_, _, rfl⟩
  have hstats : (countedTags 1).IntegerStats := by decide +kernel
  have hperm : (mergedThenCreated.map (·.2)).Perm (createdThenMerged.map (·.2)) := List.Perm.swap _ _ _
  have hall (family : Family) : family ∈ Family.all := by cases family <;> decide
  have hsmall : ∀ m ∈ mergedThenCreated.map (·.2), ∀ family, m.lost family ≤ 2 ^ 53 := by
    have hlost : ∀ m ∈ mergedThenCreated.map (·.2), ∀ family ∈ Family.all, m.lost family ≤ 2 ^ 53 := by
      decide
    exact fun m hm family => hlost m hm family (hall family)
  have hroom : (countedTags 1).RoomFor (mergedThenCreated.map (·.2)) := by
    have hentries : ∀ e ∈ (countedTags 1).rootEntries Document.stats.rootField, ∀ family ∈ Family.all,
        ∀ stat ∈ family.countName?, ∀ i ∈ (e.2.field? stat).bind Json.asInt64?,
          inInt64 (i + Mutation.createdIn (mergedThenCreated.map (·.2)) family) = true ∧
            inInt64 (i - Mutation.lostIn (mergedThenCreated.map (·.2)) family) = true := by
      decide +kernel
    intro family stat name i hstat hname hi
    obtain ⟨v, hv, hi⟩ := Option.bind_eq_some_iff.1 hi
    exact hentries (name, v) (mem_rootEntries_iff.2 ⟨hname, hv⟩) family (hall family) stat hstat i hi
  obtain ⟨d, hd, hd'⟩ := (orders_agree hreach hstats {} (by decide) hperm).2 hsmall hroom
  have hsize : ((countedTags 1).applyAll? {} mergedThenCreated).all (·.size == 2) = true := by
    decide +kernel
  rw [hd, Option.all_some, beq_iff_eq] at hsize
  exact ⟨hreach, hstats, hroom, by decide +kernel, d, hd, hd', hsize⟩

/-- One movie more than 64 bits can count is created before another one is destroyed, or after. -/
theorem create_before_destroy_stops :
    (countedTags (2 ^ 63 - 1)).Reachable ∧ (countedTags (2 ^ 63 - 1)).IntegerStats ∧
      (countedTags (2 ^ 63 - 1)).applyAll? {} [("9", .movieCreate), ("10", .movieDestroy "4")] = none ∧
      ((countedTags (2 ^ 63 - 1)).applyAll? {}
        [("9", .movieDestroy "4"), ("10", .movieCreate)]).isSome = true :=
  ⟨⟨_, _, rfl⟩, by decide +kernel, by decide +kernel, by decide +kernel⟩

end Cache

end MediaCache
