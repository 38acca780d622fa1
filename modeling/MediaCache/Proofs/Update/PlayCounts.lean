import MediaCache.Proofs.Update.Counts

/-!
# Plays over a run

A play adds one to the plays of its scene and to the total, and to the number of scenes played when it is
the first of the scene. Where nobody knows whether it is, that number is dropped. A run of plays ends when
all these numbers have room for it.
-/

namespace MediaCache

/-- The call counts a play of the scene, and the server returned a value without members for it. -/
structure Plays (id : String) (call : UpdateCall) : Prop where
  mutation : call.mutation = .sceneIncrementPlayCount id
  result : ∃ r, call.result = some r ∧ r.isScalar = true ∧ call.mutation.kind.accepts r = true

/-- The numbers that a run of plays adds to stay in 64 bits. -/
structure RoomForPlays (c : Cache) (n : Int) (plays : Nat) : Prop where
  scene : inInt64 (n + plays) = true
  total : ∀ name i, baseFieldName name = Document.stats.rootField →
    c.count? name "total_play_count" = some i → inInt64 (i + plays) = true
  scenes : n = 0 → 0 < plays → ∀ name i, baseFieldName name = Document.stats.rootField →
    c.count? name "scenes_played" = some i → inInt64 (i + 1) = true

/-- What a run of plays makes of a scene that was played `n` times before, and of the statistics. Members
that are no integers do not become any. -/
structure PlaysCounted (c d : Cache) (scene : ObjectRef) (n : Int) (plays : Nat) : Prop where
  unplayed : plays = 0 → d.fieldValue? scene "play_count" = c.fieldValue? scene "play_count"
  played : 0 < plays → d.contains scene = true →
    d.fieldValue? scene "play_count" = some (.int (n + plays))
  total : ∀ name, baseFieldName name = Document.stats.rootField →
    d.count? name "total_play_count" = (c.count? name "total_play_count").map (· + (plays : Int))
  scenes : ∀ name, baseFieldName name = Document.stats.rootField →
    d.count? name "scenes_played" =
      (c.count? name "scenes_played").map (· + if n = 0 ∧ 0 < plays then 1 else 0)

/-- What a play makes of a scene whose plays are not known, and of the statistics. -/
structure PlayUnknown (c d : Cache) (scene : ObjectRef) : Prop where
  kept : d.contains scene = true →
    c.contains scene = true ∧ d.fieldValue? scene "play_count" = c.fieldValue? scene "play_count"
  total : ∀ name, baseFieldName name = Document.stats.rootField →
    d.count? name "total_play_count" = (c.count? name "total_play_count").map (· + 1)
  scenes : ∀ name v, baseFieldName name = Document.stats.rootField → d.root.get? name = some v →
    v.field? "scenes_played" = none

def playedStats (previous : Option Int) (v : Json) : Json :=
  let totalled := Cache.addedStat "total_play_count" (Double.ofInt 1) v
  match previous with
  | some n => if n = 0 then Cache.addedStat "scenes_played" (Double.ofInt 1) totalled else totalled
  | none => Cache.droppedStat "scenes_played" totalled

namespace Cache

variable {c : Cache} {id name : String} {call : UpdateCall}

/-! ## One play -/

theorem writeResult_of_isScalar {r : Json} (h : r.isScalar = true) (c : Cache) (subject : Subject) :
    c.writeResult subject r = c := by
  cases r with
  | array items => cases h
  | object fields => cases h
  | _ => rfl

@[simp]
theorem contains_countPlay (c : Cache) (scene : ObjectRef) (now : String) (o : ObjectRef) :
    (c.countPlay scene now).contains o = c.contains o :=
  countPlay_keeps (P := fun d => d.contains o = c.contains o) rfl
    (fun _ _ _ => contains_applyToField c scene _ _ o.cacheId)
    (fun d hd => (contains_modifyField d scene _ _ o.cacheId).trans hd)
    (fun d stat _ hd => ((sameStore_addToStat d stat _).contains o).trans hd)
    fun d hd => ((sameStore_dropStat d _).contains o).trans hd

theorem fieldValue?_countPlay (c : Cache) (scene : ObjectRef) (now : String) :
    (c.countPlay scene now).fieldValue? scene "play_count" =
      match c.playCount? scene with
      | some n => some (.int (wrapInt64 (n + 1)))
      | none => c.fieldValue? scene "play_count" := by
  have hdated (d : Cache) : ((d.modifyField scene "last_played_at" fun _ => .set (.string now)).2.addToStat
      "total_play_count" (Double.ofInt 1)).2.fieldValue? scene "play_count" =
        d.fieldValue? scene "play_count" := by
    rw [(sameStore_addToStat _ _ _).fieldValue?, fieldValue?_modifyField_of_ne d _ (by simp)]
  unfold countPlay
  cases hn : c.playCount? scene with
  | none =>
    dsimp only
    rw [(sameStore_dropStat _ _).fieldValue?, hdated]
  | some n =>
    obtain ⟨v, hv⟩ := fieldValue?_of_playCount? hn
    have hcounted := fieldValue?_applyToField_self c scene "play_count"
      (.set (.int (wrapInt64 (n + 1)))) hv
    dsimp only
    split
    · rw [(sameStore_addToStat _ _ _).fieldValue?, hdated, hcounted]
      rfl
    · rw [hdated, hcounted]
      rfl

theorem get?_countPlay (hname : baseFieldName name = Document.stats.rootField) (c : Cache)
    (scene : ObjectRef) (now : String) :
    (c.countPlay scene now).root.get? name = (c.root.get? name).map (playedStats (c.playCount? scene)) := by
  have htotalled (d : Cache) : ((d.modifyField scene "last_played_at" fun _ => .set (.string now)).2.addToStat
      "total_play_count" (Double.ofInt 1)).2.root.get? name =
        (d.root.get? name).map (addedStat "total_play_count" (Double.ofInt 1)) := by
    rw [get?_addToStat hname, (sameRoot_modifyField d scene _ _).1.root]
  unfold countPlay
  cases c.playCount? scene with
  | none =>
    dsimp only
    rw [get?_dropStat hname, htotalled, Option.map_map]
    rfl
  | some n =>
    have hcounted := (sameRoot_applyToField c scene "play_count" (.set (.int (wrapInt64 (n + 1))))).1.root
    dsimp only
    split
    · rename_i hzero
      rw [get?_addToStat hname, htotalled, hcounted, Option.map_map, hzero]
      rfl
    · rename_i hpos
      have hstats : playedStats (some n) = addedStat "total_play_count" (Double.ofInt 1) :=
        funext fun v => if_neg hpos
      rw [htotalled, hcounted, hstats]

theorem clampInt64_one : clampInt64 (Double.ofInt 1).truncate = 1 := clampInt64_ofInt (by decide)

theorem statFits_one_iff {stat : String} :
    c.statFits stat (Double.ofInt 1) = true ↔
      ∀ name i, baseFieldName name = Document.stats.rootField → c.count? name stat = some i →
        inInt64 (i + 1) = true := by
  rw [statFits_iff_count? (Double.isWhole_ofInt 1), clampInt64_one]

theorem playFits_iff {scene : ObjectRef} :
    c.playFits scene = true ↔
      (∀ n, c.playCount? scene = some n → inInt64 (n + 1) = true) ∧
        c.statFits "total_play_count" (Double.ofInt 1) = true ∧
          (c.playCount? scene = some 0 → c.statFits "scenes_played" (Double.ofInt 1) = true) := by
  simp only [playFits, Bool.and_eq_true, Option.all_eq_true, Bool.or_eq_true, bne_iff_ne, ne_eq,
    and_assoc]
  refine and_congr_right fun _ => and_congr_right fun _ => ?_
  exact Decidable.imp_iff_not_or.symm

def afterPlay (c : Cache) (id : String) (call : UpdateCall) : Cache :=
  ((c.countPlay ⟨.scene, id⟩ call.now).evictQueries [.findScenes] call.options).2

theorem updateBy?_play (h : Plays id call) (c : Cache) :
    c.updateBy? call =
      if c.playFits ⟨.scene, id⟩ then some (.applied, c.afterPlay id call) else none := by
  obtain ⟨r, hr, hscalar, haccepts⟩ := h.result
  rw [updateBy?, applyMutation?, hr, Option.filter_some, if_pos haccepts]
  simp only [writeResult_of_isScalar hscalar, h.mutation]
  have hplan : (Mutation.sceneIncrementPlayCount id).plan r =
      [.countPlay ⟨.scene, id⟩, .evictQueries [.findScenes]] := rfl
  rw [hplan, Plan.run?_cons, Step.run?, Step.fits]
  split <;> rfl

theorem get?_afterPlay (hname : baseFieldName name = Document.stats.rootField) (c : Cache) (id : String)
    (call : UpdateCall) :
    (c.afterPlay id call).root.get? name =
      (c.root.get? name).map (playedStats (c.playCount? ⟨.scene, id⟩)) := by
  have hother : ∀ doc ∈ [Document.findScenes], doc.rootField ≠ baseFieldName name := by
    rw [hname]
    decide
  exact (congrArg Prod.fst (entry_evictQueries_of_not_named hother)).trans (get?_countPlay hname c _ _)

theorem playCount_afterPlay (hin : (c.afterPlay id call).contains ⟨.scene, id⟩ = true) :
    (c.afterPlay id call).fieldValue? ⟨.scene, id⟩ "play_count" =
      match c.playCount? ⟨.scene, id⟩ with
      | some n => some (.int (wrapInt64 (n + 1)))
      | none => c.fieldValue? ⟨.scene, id⟩ "play_count" :=
  (fieldValue?_evictQueries_of_contains hin "play_count").trans (fieldValue?_countPlay c _ _)

theorem contains_of_afterPlay (hin : (c.afterPlay id call).contains ⟨.scene, id⟩ = true) :
    c.contains ⟨.scene, id⟩ = true :=
  (contains_countPlay c _ _ _).symm.trans (contains_of_contains_evictQueries hin)

theorem count?_afterPlay (hname : baseFieldName name = Document.stats.rootField) {stat : String}
    {f : Int → Int}
    (h : ∀ v, c.root.get? name = some v →
      ((playedStats (c.playCount? ⟨.scene, id⟩) v).field? stat).bind Json.asInt64? =
        ((v.field? stat).bind Json.asInt64?).map f) :
    (c.afterPlay id call).count? name stat = (c.count? name stat).map f := by
  rw [count?, get?_afterPlay hname, count?]
  cases hv : c.root.get? name with
  | none => rfl
  | some v => exact h v hv

theorem count_added_one {v : Json} {stat : String}
    (hfits : (v.field? stat).all (sumFits · (Double.ofInt 1)) = true) :
    ((addedStat stat (Double.ofInt 1) v).field? stat).bind Json.asInt64? =
      ((v.field? stat).bind Json.asInt64?).map (· + 1) := by
  rw [count_addedStat_of_fits (Double.isWhole_ofInt 1) hfits, clampInt64_one]

theorem total_afterPlay (hfits : c.playFits ⟨.scene, id⟩ = true)
    (hname : baseFieldName name = Document.stats.rootField) :
    (c.afterPlay id call).count? name "total_play_count" =
      (c.count? name "total_play_count").map (· + 1) := by
  refine count?_afterPlay hname fun v hv => ?_
  have htotalled := count_added_one (statFits_iff.1 (playFits_iff.1 hfits).2.1 name v hname hv)
  have hother : "total_play_count" ≠ "scenes_played" := by decide
  unfold playedStats
  cases c.playCount? ⟨.scene, id⟩ with
  | none => rwa [field?_droppedStat_of_ne hother]
  | some n =>
    dsimp only
    split
    · rwa [field?_addedStat_of_ne hother]
    · exact htotalled

theorem scenesPlayed_afterPlay (hfits : c.playFits ⟨.scene, id⟩ = true)
    (hname : baseFieldName name = Document.stats.rootField) {n : Int}
    (hn : c.playCount? ⟨.scene, id⟩ = some n) :
    (c.afterPlay id call).count? name "scenes_played" =
      (c.count? name "scenes_played").map (· + if n = 0 then 1 else 0) := by
  refine count?_afterPlay hname fun v hv => ?_
  have hother : "scenes_played" ≠ "total_play_count" := by decide
  rw [hn]
  unfold playedStats
  dsimp only
  split
  · rename_i hzero
    have hroom := statFits_iff.1 ((playFits_iff.1 hfits).2.2 (hzero ▸ hn)) name v hname hv
    rw [← field?_addedStat_of_ne hother (Double.ofInt 1)] at hroom
    rw [count_added_one hroom, field?_addedStat_of_ne hother]
  · simp only [field?_addedStat_of_ne hother, Int.add_zero, Option.map_id']

/-- The number of scenes played is gone when nobody knows whether it changed. -/
theorem scenesPlayed_unknown (hname : baseFieldName name = Document.stats.rootField)
    (hn : c.playCount? ⟨.scene, id⟩ = none) {v : Json}
    (hv : (c.afterPlay id call).root.get? name = some v) : v.field? "scenes_played" = none := by
  rw [get?_afterPlay hname, hn] at hv
  obtain ⟨w, -, rfl⟩ := Option.map_eq_some_iff.1 hv
  exact field?_droppedStat_self "scenes_played" _

theorem playCount?_afterPlay (hfits : c.playFits ⟨.scene, id⟩ = true) {n : Int}
    (hn : c.playCount? ⟨.scene, id⟩ = some n)
    (hin : (c.afterPlay id call).contains ⟨.scene, id⟩ = true) :
    (c.afterPlay id call).playCount? ⟨.scene, id⟩ = some (n + 1) := by
  have hnext := (playFits_iff.1 hfits).1 n hn
  have hcount := playCount_afterPlay hin
  rw [hn] at hcount
  rw [playCount?, hcount, Option.bind_some, wrapInt64_of_inInt64 hnext, Json.asInt64?_int, if_pos hnext]
  rfl

theorem playsCounted_afterPlay (hfits : c.playFits ⟨.scene, id⟩ = true) {n : Int}
    (hn : c.playCount? ⟨.scene, id⟩ = some n) :
    PlaysCounted c (c.afterPlay id call) ⟨.scene, id⟩ n 1 where
  unplayed h := absurd h (by decide)
  played _ hin := by
    have hcount := playCount_afterPlay hin
    rw [hn] at hcount
    exact hcount.trans (congrArg (fun k => some (Json.int k))
      (wrapInt64_of_inInt64 ((playFits_iff.1 hfits).1 n hn)))
  total name hname := total_afterPlay hfits hname
  scenes name hname := by
    rw [scenesPlayed_afterPlay hfits hname hn]
    simp

theorem playUnknown_afterPlay (hfits : c.playFits ⟨.scene, id⟩ = true)
    (hn : c.playCount? ⟨.scene, id⟩ = none) : PlayUnknown c (c.afterPlay id call) ⟨.scene, id⟩ where
  kept hin := by
    have hcount := playCount_afterPlay hin
    rw [hn] at hcount
    exact ⟨contains_of_afterPlay hin, hcount⟩
  total name hname := total_afterPlay hfits hname
  scenes name v hname hv := scenesPlayed_unknown hname hn hv

/-! ## Runs of plays -/

def ResidentAlong (obj : ObjectRef) : Cache → List UpdateCall → Prop
  | _, [] => True
  | c, call :: rest =>
    c.contains obj = true ∧ ∀ next, c.updateBy? call = some next → ResidentAlong obj next.2 rest

theorem playsCounted_cons {d e : Cache} {scene : ObjectRef} {n : Int} {plays : Nat}
    (h : PlaysCounted c d scene n 1) (hrest : PlaysCounted d e scene (n + 1) plays) (hpos : 0 ≤ n)
    (hsome : 0 < plays) : PlaysCounted c e scene n (plays + 1) where
  unplayed hnone := absurd hnone (Nat.succ_ne_zero plays)
  played _ hin := by
    rw [hrest.played hsome hin, Int.add_assoc, Int.add_comm 1]
    rfl
  total name hname := by
    rw [hrest.total name hname, h.total name hname, Option.map_map]
    refine congrArg (Option.map · _) (funext fun i => ?_)
    simp only [Function.comp_apply]
    omega
  scenes name hname := by
    rw [hrest.scenes name hname, h.scenes name hname, Option.map_map]
    refine congrArg (Option.map · _) (funext fun i => ?_)
    have hlater : ¬(n + 1 = 0 ∧ 0 < plays) := by omega
    simp only [Function.comp_apply, if_neg hlater, Int.add_zero, Nat.zero_lt_succ]

theorem inInt64_of_count? {stat : String} {i : Int} (h : c.count? name stat = some i) :
    inInt64 i = true := by
  obtain ⟨v, -, hv⟩ := Option.bind_eq_some_iff.1 h
  obtain ⟨w, -, hw⟩ := Option.bind_eq_some_iff.1 hv
  exact Json.inInt64_of_asInt64? hw

theorem playFits_of_room {n : Int} {plays : Nat} (h : RoomForPlays c n (plays + 1))
    (hn : c.playCount? ⟨.scene, id⟩ = some n) (hpos : 0 ≤ n) : c.playFits ⟨.scene, id⟩ = true := by
  rw [playFits_iff, statFits_one_iff, statFits_one_iff, hn]
  refine ⟨fun m hm => ?_, fun name i hname hi => ?_, fun hzero => ?_⟩
  · cases hm
    exact inInt64_between (by decide : inInt64 0 = true) h.scene (by omega) (by omega)
  · exact inInt64_between (inInt64_of_count? hi) (h.total name i hname hi) (by omega) (by omega)
  · exact h.scenes (Option.some.inj hzero) (Nat.succ_pos plays)

/-- There is room for some plays and one before them when there is room for that one, and then for the
others. -/
theorem roomForPlays_succ (call : UpdateCall) {n : Int} {plays : Nat}
    (hn : c.playCount? ⟨.scene, id⟩ = some n) (hpos : 0 ≤ n) :
    RoomForPlays c n (plays + 1) ↔
      c.playFits ⟨.scene, id⟩ = true ∧ RoomForPlays (c.afterPlay id call) (n + 1) plays := by
  have hsum (i : Int) : i + 1 + (plays : Int) = i + ((plays + 1 : Nat) : Int) := by omega
  refine ⟨fun h => ?_, fun ⟨hfits, h⟩ => ⟨hsum n ▸ h.scene, fun name i hname hi => ?_, ?_⟩⟩
  · have hfits := playFits_of_room h hn hpos
    refine ⟨hfits, ⟨hsum n ▸ h.scene, fun name j hname hj => ?_, fun hzero => by omega⟩⟩
    rw [total_afterPlay hfits hname] at hj
    obtain ⟨i, hi, rfl⟩ := Option.map_eq_some_iff.1 hj
    exact hsum i ▸ h.total name i hname hi
  · have hnext : (c.afterPlay id call).count? name "total_play_count" = _ := total_afterPlay hfits hname
    rw [hi] at hnext
    exact hsum i ▸ h.total name (i + 1) hname hnext
  · rintro hzero -
    exact statFits_one_iff.1 ((playFits_iff.1 hfits).2.2 (hzero ▸ hn))

theorem inInt64_of_playCount? {scene : ObjectRef} {n : Int} (h : c.playCount? scene = some n) :
    inInt64 n = true := by
  obtain ⟨v, -, hv⟩ := Option.bind_eq_some_iff.1 h
  split at hv
  · cases hv
    rfl
  · exact Json.inInt64_of_asInt64? hv

theorem roomForPlays_zero {n : Int} (hn : inInt64 n = true) : RoomForPlays c n 0 where
  scene := by rwa [Int.natCast_zero, Int.add_zero]
  total name i _ hi := by
    rw [Int.natCast_zero, Int.add_zero]
    exact inInt64_of_count? hi
  scenes _ h := absurd h (Nat.lt_irrefl 0)

/-- What a run of plays does, and when it ends. The first play makes the plays known to the others. -/
theorem updateAll?_plays {calls : List UpdateCall} (hplays : ∀ call ∈ calls, Plays id call)
    (hresident : ResidentAlong ⟨.scene, id⟩ c calls) {n : Int} (hn : c.playCount? ⟨.scene, id⟩ = some n)
    (hpos : 0 ≤ n) :
    ((c.updateAll? calls).isSome = true ↔ RoomForPlays c n calls.length) ∧
      ∀ d, c.updateAll? calls = some d → PlaysCounted c d ⟨.scene, id⟩ n calls.length := by
  induction calls generalizing c n with
  | nil =>
    refine ⟨iff_of_true rfl (roomForPlays_zero (inInt64_of_playCount? hn)), fun d hd => ?_⟩
    obtain rfl : c = d := Option.some.inj hd
    exact ⟨fun _ => rfl, fun h => absurd h (Nat.lt_irrefl 0), by simp, by simp⟩
  | cons call rest ih =>
    obtain ⟨hfirst, hothers⟩ := List.forall_mem_cons.1 hplays
    rw [updateAll?_cons, updateBy?_play hfirst, List.length_cons,
      roomForPlays_succ call hn hpos]
    by_cases hfits : c.playFits ⟨.scene, id⟩ = true
    · rw [if_pos hfits, Option.bind_some, and_iff_right hfits]
      have hstep : PlaysCounted c (c.afterPlay id call) ⟨.scene, id⟩ n 1 :=
        playsCounted_afterPlay hfits hn
      have hlater := hresident.2 (.applied, c.afterPlay id call)
        ((updateBy?_play hfirst c).trans (if_pos hfits))
      cases rest with
      | nil =>
        refine ⟨iff_of_true rfl (roomForPlays_zero ((playFits_iff.1 hfits).1 n hn)), fun d hd => ?_⟩
        obtain rfl : c.afterPlay id call = d := Option.some.inj hd
        exact hstep
      | cons next rest =>
        -- The scene is there when the next call starts.
        have hknown := playCount?_afterPlay hfits hn hlater.1
        obtain ⟨hends, hcounted⟩ := ih hothers hlater hknown (by omega)
        exact ⟨hends, fun d hd => playsCounted_cons hstep (hcounted d hd) hpos (Nat.succ_pos _)⟩
    · -- The first play has no room.
      rw [if_neg hfits, Option.bind_none]
      exact ⟨iff_of_false (by simp) (fun h => hfits h.1), fun d hd => by cases hd⟩

/-- Over any run of plays of one scene that is stored at each of them, the plays of the scene and the total
go up with each, and the number of scenes played goes up once if the scene had not been played. A play of a
scene whose plays are not known still goes into the total, and drops the number of scenes played. Both end
exactly when the numbers that they add to have room. -/
theorem plays_counted (id : String) :
    (∀ (c : Cache) (calls : List UpdateCall) (n : Int), (∀ call ∈ calls, Plays id call) →
      ResidentAlong ⟨.scene, id⟩ c calls → c.playCount? ⟨.scene, id⟩ = some n → 0 ≤ n →
        ((c.updateAll? calls).isSome = true ↔ RoomForPlays c n calls.length) ∧
          ∀ d, c.updateAll? calls = some d → PlaysCounted c d ⟨.scene, id⟩ n calls.length) ∧
    ∀ (c : Cache) (call : UpdateCall), Plays id call → c.playCount? ⟨.scene, id⟩ = none →
      ((c.updateBy? call).isSome = true ↔
        ∀ name i, baseFieldName name = Document.stats.rootField →
          c.count? name "total_play_count" = some i → inInt64 (i + 1) = true) ∧
        ∀ next, c.updateBy? call = some next → PlayUnknown c next.2 ⟨.scene, id⟩ := by
  refine ⟨fun _ _ _ hplays hresident hn hpos => updateAll?_plays hplays hresident hn hpos,
    fun c call h hn => ?_⟩
  have hroom : c.playFits ⟨.scene, id⟩ = true ↔
      c.statFits "total_play_count" (Double.ofInt 1) = true := by
    simp [playFits_iff, hn]
  rw [updateBy?_play h, ← statFits_one_iff, ← hroom]
  by_cases hfits : c.playFits ⟨.scene, id⟩ = true
  · rw [if_pos hfits]
    refine ⟨iff_of_true rfl hfits, fun next hnext => ?_⟩
    cases hnext
    exact playUnknown_afterPlay hfits hn
  · rw [if_neg hfits]
    exact ⟨iff_of_false (by simp) hfits, fun next hnext => by cases hnext⟩

def withPlays (count : Json) : Cache :=
  (new .standard).run [
    .writeRoot "findScene" (some (.object [("id", .string "1")])) (.object
      [("__typename", .string "Scene"), ("id", .string "1"), ("play_count", count)]),
    .writeRoot "stats" none (.object [("scenes_played", .int 3), ("total_play_count", .int 5)])]

def play (id : String) : UpdateCall :=
  { mutation := .sceneIncrementPlayCount id, result := some (.bool true) }

/-- Two plays of a scene that had none, and one of a scene that is not stored. -/
theorem unplayed_scene_counted :
    (withPlays .null).playCount? ⟨.scene, "1"⟩ = some 0 ∧
      ResidentAlong ⟨.scene, "1"⟩ (withPlays .null) [play "1", play "1"] ∧
      (∃ d, (withPlays .null).updateAll? [play "1", play "1"] = some d ∧
        d.fieldValue? ⟨.scene, "1"⟩ "play_count" = some (.int 2) ∧
        d.count? "stats" "total_play_count" = some 7 ∧ d.count? "stats" "scenes_played" = some 4) ∧
      (withPlays .null).playCount? ⟨.scene, "2"⟩ = none ∧
      ∃ next, (withPlays .null).updateBy? (play "2") = some next ∧
        next.2.count? "stats" "total_play_count" = some 6 ∧
        next.2.count? "stats" "scenes_played" = none := by
  have hname : baseFieldName "stats" = Document.stats.rootField := by decide +kernel
  have hplays (id : String) : Plays id (play id) := ⟨rfl, _, rfl, rfl, rfl⟩
  have hresident : ResidentAlong ⟨.scene, "1"⟩ (withPlays .null) [play "1", play "1"] := by
    have hnext : ((withPlays .null).updateBy? (play "1")).all (·.2.contains ⟨.scene, "1"⟩) = true := by
      decide +kernel
    exact ⟨by decide +kernel, fun next h => ⟨(Option.all_eq_true _ _).1 hnext next h, fun _ _ => trivial⟩⟩
  have hn : (withPlays .null).playCount? ⟨.scene, "1"⟩ = some 0 := by decide +kernel
  have hnone : (withPlays .null).playCount? ⟨.scene, "2"⟩ = none := by decide +kernel
  have htotal : (withPlays .null).count? "stats" "total_play_count" = some 5 := by decide +kernel
  have hscenes : (withPlays .null).count? "stats" "scenes_played" = some 3 := by decide +kernel
  have hboth : ∀ call ∈ [play "1", play "1"], Plays "1" call := by simp [hplays]
  have hcounted := ((plays_counted "1").1 _ _ 0 hboth hresident hn (by decide)).2
  have hunknown := ((plays_counted "2").2 _ _ (hplays "2") hnone).2
  have hends : ((withPlays .null).updateAll? [play "1", play "1"]).any (·.contains ⟨.scene, "1"⟩) = true := by
    decide +kernel
  obtain ⟨d, hd, hin⟩ := (Option.any_eq_true _ _).1 hends
  obtain ⟨next, hnext⟩ := Option.isSome_iff_exists.1
    (by decide +kernel : ((withPlays .null).updateBy? (play "2")).isSome = true)
  refine ⟨hn, hresident, ⟨d, hd, (hcounted d hd).played (by decide) hin, ?_, ?_⟩, hnone, next, hnext, ?_, ?_⟩
  · rw [(hcounted d hd).total "stats" hname, htotal]
    rfl
  · rw [(hcounted d hd).scenes "stats" hname, hscenes]
    rfl
  · rw [(hunknown next hnext).total "stats" hname, htotal]
    rfl
  · rw [count?]
    cases hv : next.2.root.get? "stats" with
    | none => rfl
    | some v => rw [Option.bind_some, (hunknown next hnext).scenes "stats" v hname hv, Option.bind_none]

/-- After as many plays as 64 bits can hold there is no further play. -/
theorem plays_miss :
    Plays "1" (play "1") ∧
      ResidentAlong ⟨.scene, "1"⟩ (withPlays (.int (2 ^ 63 - 1))) [play "1"] ∧
      (withPlays (.int (2 ^ 63 - 1))).playCount? ⟨.scene, "1"⟩ = some (2 ^ 63 - 1) ∧
      (withPlays (.int (2 ^ 63 - 1))).updateAll? [play "1"] = none :=
  ⟨⟨rfl, _, rfl, rfl, rfl⟩, ⟨by decide +kernel, fun _ _ => trivial⟩, by decide +kernel,
    by decide +kernel⟩

end Cache

end MediaCache
