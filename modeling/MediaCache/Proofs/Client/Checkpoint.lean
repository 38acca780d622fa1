import MediaCache.Proofs.Client.Replay

/-!
# A replay can stop and go on

A log is cut between two lines. The first part is replayed, the snapshot that this leaves is replayed
with the second part, and the end is that of the whole log. This needs that the saved snapshot can be
read again, so what the first part returned must be fit to be saved.
-/

namespace MediaCache

/-! ## Lines -/

theorem splitLines_append (seen first second : List Char) :
    splitLines seen (first ++ '\n' :: second) =
      splitLines seen (first ++ ['\n']) ++ splitLines [] second := by
  induction first generalizing seen with
  | nil => simp [splitLines]
  | cons c rest ih =>
    by_cases hc : c = '\n'
    · subst hc
      simp [splitLines, ih]
    · simp [splitLines, ih]

theorem lines_append (first second : String) :
    lines (first ++ "\n" ++ second) = lines (first ++ "\n") ++ lines second := by
  have hcut := splitLines_append [] first.toList second.toList
  simp only [lines, String.toList_append, List.append_assoc]
  rw [← List.map_append]
  exact congrArg _ hcut

/-! ## Starting from a saved cache -/

namespace Cache

/-- A replay of the snapshot of this cache starts with this cache. -/
structure Resumable (c : Cache) : Prop where
  storable : c.Storable
  policies : c.policies = .standard
  retained : c.retained = ∅

variable {c d : Cache} {options : Options}

theorem resumable_start {stored : String} (h : Replay.start stored = .ok c) : c.Resumable := by
  obtain ⟨hstorable, hpolicies, hretained⟩ := (Replay.start_eq_ok_iff.1 h).storable
  exact ⟨hstorable, hpolicies, hretained⟩

theorem Resumable.applyRecord? (h : c.Resumable) {r : MutationRecord × String} (hr : r.1.Textual)
    (hsaves : r.1.Saves) (happly : c.applyRecord? options r = some d) : d.Resumable := by
  rw [← applyMutation_of_applyRecord? happly]
  obtain ⟨hpolicies, hretained⟩ := settings_applyMutation c options r.2 r.1.mutation r.1.result
  exact ⟨h.storable.applyMutation hr hsaves options r.2, hpolicies.trans h.policies,
    hretained.trans h.retained⟩

theorem Resumable.applyRecords? {records : List (MutationRecord × String)}
    (hrecords : ∀ r ∈ records, r.1.Textual ∧ r.1.Saves) {c : Cache} (h : c.Resumable)
    (happly : c.applyRecords? options records = some d) : d.Resumable := by
  induction records generalizing c with
  | nil =>
    cases happly
    exact h
  | cons r rest ih =>
    obtain ⟨hfirst, hrest⟩ := List.forall_mem_cons.1 hrecords
    rw [applyRecords?_cons] at happly
    obtain ⟨next, hnext, happly⟩ := Option.bind_eq_some_iff.1 happly
    exact ih hrest (h.applyRecord? hfirst.1 hfirst.2 hnext) happly

theorem Resumable.start_render (h : c.Resumable) {spaces : List Char}
    (hspaces : ∀ c ∈ spaces, Json.Scanner.isSpace c = true) :
    Replay.start (c.extract.render ++ String.ofList spaces) = .ok c := by
  obtain ⟨s, hs, hrestore⟩ := h.storable.restore_parse? (d := .new .standard) h.policies.symm h.retained
    hspaces
  unfold Replay.start
  rw [hs]
  simp only [hrestore]

theorem SameButTimes.of_applyRecords? {p q : String → Prop} (h : SameButTimes p q c d)
    {records : List MutationRecord} {now later : String} (hnow : p now) (hlater : q later) {after : Cache}
    (happly : c.applyRecords? options (records.map (·, now)) = some after) :
    ∃ other, d.applyRecords? options (records.map (·, later)) = some other ∧
      SameButTimes p q after other := by
  have hrel : Option.Rel (SameButTimes p q) (c.applyRecords? options (records.map (·, now)))
      (d.applyRecords? options (records.map (·, later))) :=
    h.applyRecords? (by simp) (by simpa using fun _ _ => hnow) (by simpa using fun _ _ => hlater)
  rw [happly] at hrel
  cases hother : d.applyRecords? options (records.map (·, later)) with
  | none =>
    rw [hother] at hrel
    cases hrel
  | some other =>
    rw [hother] at hrel
    cases hrel with
    | some hsame => exact ⟨other, rfl, hsame⟩

end Cache

namespace CommandLine

open Replay

/-! ## Runs of the command -/

def Replays (config : Config) (stored recorded now : String) (out : Option String) (e : Exit) : Prop :=
  ∃ (s : Surroundings) (snapshot log : String), (s.files snapshot).text = .ok stored ∧
    (s.files log).text = .ok recorded ∧ s.nowInMilliseconds = now ∧
    (Command.replay snapshot log out).run s config = e

variable {config : Config} {stored recorded now : String} {out : Option String} {e : Exit}

theorem Replays.ends (h : Replays config stored recorded now out e) {start : Cache}
    (hstart : Replay.start stored = .ok start) :
    ∃ snapshot log final, Ends (replayOptions config) now start (lines recorded) final ∧
      e = match final with
        | .ok final => .ofSnapshot out final.cache.extract
        | .error e => { Exit.failure (e.message snapshot log) with code := replayCode e } := by
  obtain ⟨s, snapshot, log, hstored, hrecorded, rfl, rfl⟩ := h
  exact ⟨snapshot, log, replayLog_ends hstored hrecorded hstart⟩

theorem Replays.of_applyRecords? (h : Replays config stored recorded now out e) {start c : Cache}
    (hstart : Replay.start stored = .ok start) {records : List MutationRecord}
    (hrecords : records? (lines recorded) = some records)
    (happly : start.applyRecords? (replayOptions config) (records.map (·, now)) = some c) :
    e = .ofSnapshot out c.extract := by
  obtain ⟨s, snapshot, log, hstored, hrecorded, rfl, rfl⟩ := h
  exact replayLog_of_applyRecords? hstored hrecorded hstart hrecords happly

theorem Replays.carriedOut (h : Replays config stored recorded now out e) (hcode : e.code = 0) :
    ∃ start records c, Replay.start stored = .ok start ∧ records? (lines recorded) = some records ∧
      start.applyRecords? (replayOptions config) (records.map (·, now)) = some c := by
  cases hstart : Replay.start stored with
  | error err =>
    obtain ⟨s, snapshot, log, hstored, hrecorded, rfl, rfl⟩ := h
    have hfailed : Exit.Failed ((Command.replay snapshot log out).run s config) (replayCode err) :=
      replayLog_refused hstored hrecorded hstart
    rw [replayCode_of_start hstart, Exit.Failed, hcode] at hfailed
    cases hfailed.1
  | ok start =>
    obtain ⟨snapshot, log, final, hends, hexit⟩ := h.ends hstart
    rw [hexit] at hcode
    cases hends with
    | carriedOut calls hdone hend => exact ⟨start, _, _, rfl, hdone, hend⟩
    | invalid n hdone => cases hcode
    | overflow n hover => cases hcode

theorem replays_ofTexts (config : Config) (stored recorded now : String) (out : Option String) :
    Replays config stored recorded now out
      ((Command.replay "snapshot" "log" out).run (.ofTexts stored recorded now) config) :=
  ⟨.ofTexts stored recorded now, "snapshot", "log", text_toUTF8 stored, text_toUTF8 recorded, rfl, rfl⟩

/-! ## Cutting a log -/

/-- A replay whose log is cut between two lines and that saves its cache there ends as the whole replay
does, but for the times of plays, if what the first part returned can be saved. -/
theorem replay_checkpointed (config : Config) {stored first second now : String} {out : Option String}
    {whole : Exit} (hwhole : Replays config stored (first ++ "\n" ++ second) now out whole)
    (hcode : whole.code = 0)
    (hsaves : ∀ l ∈ lines (first ++ "\n"), ∀ r ∈ MutationRecord.parse? l, r.Saves) :
    ∃ result, whole = .ofSnapshot out result ∧
      ∀ {nowBefore outBefore before}, Replays config stored (first ++ "\n") nowBefore outBefore before →
        ∃ saved, before = .ofSnapshot outBefore saved ∧
          (∃ cut, Replay.start before.saved = .ok cut ∧ cut.extract = saved) ∧
          ∀ {nowAfter outAfter after}, Replays config before.saved second nowAfter outAfter after →
            ∃ resumed, after = .ofSnapshot outAfter resumed ∧
              Snapshot.SameButTimes (· = now) (fun t => t = nowBefore ∨ t = nowAfter) result resumed := by
  obtain ⟨start, records, c, hstart, hrecords, happly⟩ := hwhole.carriedOut hcode
  refine ⟨c.extract, hwhole.of_applyRecords? hstart hrecords happly, ?_⟩
  rw [lines_append, records?_append] at hrecords
  obtain ⟨done, hdone, hrecords⟩ := Option.bind_eq_some_iff.1 hrecords
  obtain ⟨rest, hrest, rfl⟩ := Option.map_eq_some_iff.1 hrecords
  rw [List.map_append, Cache.applyRecords?_append] at happly
  obtain ⟨mid, hmid, happly⟩ := Option.bind_eq_some_iff.1 happly
  intro nowBefore outBefore before hbefore
  obtain ⟨cut, hcut, -⟩ := (Cache.SameButTimes.refl start).of_applyRecords? (p := (· = now))
    (q := (· = nowBefore)) rfl rfl hmid
  have hbefore := hbefore.of_applyRecords? hstart hdone hcut
  have hrecords : ∀ r ∈ done.map (·, nowBefore), r.1.Textual ∧ r.1.Saves := by
    intro r hr
    obtain ⟨record, hrecord, rfl⟩ := List.mem_map.1 hr
    obtain ⟨l, hl, hparse⟩ := parse?_of_mem hdone hrecord
    exact ⟨MutationRecord.textual_of_parse? hparse, hsaves l hl record hparse⟩
  have hresumable := (Cache.resumable_start hstart).applyRecords? hrecords hcut
  obtain ⟨spaces, hspaces, hsaved⟩ := Exit.saved_ofSnapshot outBefore cut.extract
  have hrestart : Replay.start before.saved = .ok cut := by
    rw [hbefore, hsaved]
    exact hresumable.start_render hspaces
  refine ⟨cut.extract, hbefore, ⟨cut, hrestart, rfl⟩, ?_⟩
  intro nowAfter outAfter after hafter
  -- Times of plays come from two clocks now, so the first part is compared again.
  obtain ⟨again, hagain, hsame⟩ := (Cache.SameButTimes.refl start).of_applyRecords? (p := (· = now))
    (q := fun t => t = nowBefore ∨ t = nowAfter) rfl (.inl rfl) hmid
  cases hagain.symm.trans hcut
  obtain ⟨resumed, hresumed, hsame⟩ := hsame.of_applyRecords? rfl (.inr rfl) happly
  exact ⟨resumed.extract, hafter.of_applyRecords? hrestart hrest hresumed, hsame.extract⟩

def createdLog : String :=
  "[[\"tagCreate\",\x7b\x7d],\x7b\"id\":\"1\"\x7d]\n" ++
  "[[\"sceneIncrementPlayCount\",\x7b\"id\":\"1\"\x7d],4]\n"

theorem played_log_checkpointed :
    (replayTexts playedSnapshot (playedLog ++ "\n" ++ createdLog) "2024").code = 0 ∧
    (∀ l ∈ lines (playedLog ++ "\n"), ∀ r ∈ MutationRecord.parse? l, r.Saves) ∧
    ∃ result saved resumed,
      replayTexts playedSnapshot (playedLog ++ "\n" ++ createdLog) "2024" = .ofSnapshot none result ∧
      replayTexts playedSnapshot (playedLog ++ "\n") "2022" = .ofSnapshot none saved ∧
      replayTexts (Exit.ofSnapshot none saved).saved createdLog "2023" = .ofSnapshot none resumed ∧
      Snapshot.SameButTimes (· = "2024") (fun t => t = "2022" ∨ t = "2023") result resumed := by
  have hcode : (replayTexts playedSnapshot (playedLog ++ "\n" ++ createdLog) "2024").code = 0 := by
    decide +kernel
  have hsaves : ∀ l ∈ lines (playedLog ++ "\n"), ∀ r ∈ MutationRecord.parse? l, r.Saves := by
    decide +kernel
  obtain ⟨result, hwhole, hcut⟩ := replay_checkpointed plainConfig (replays_ofTexts ..) hcode hsaves
  obtain ⟨saved, hbefore, -, hresume⟩ := hcut (replays_ofTexts plainConfig _ _ "2022" none)
  obtain ⟨resumed, hafter, hsame⟩ := hresume (replays_ofTexts plainConfig _ createdLog "2023" none)
  rw [hbefore] at hafter
  exact ⟨hcode, hsaves, result, saved, resumed, hwhole, hbefore, hafter, hsame⟩

def emptyTags : String := "\x7b\"objects\":\x7b\"ROOT_QUERY\":\x7b\"allTags\":[]\x7d\x7d\x7d"

/-- The server returns a tag whose id is empty. -/
def unnamedLog : String := "[[\"tagCreate\",\x7b\x7d],\x7b\"id\":\"\"\x7d]"

/-- The tag is stored and saved, but its key is none that a snapshot may have. -/
theorem unnamed_tag_refused :
    ∃ whole before after,
      Replays plainConfig emptyTags (unnamedLog ++ "\n" ++ "\n") "2024" none whole ∧ whole.code = 0 ∧
      Replays plainConfig emptyTags (unnamedLog ++ "\n") "2024" none before ∧ before.code = 0 ∧
      Replays plainConfig before.saved "\n" "2024" none after ∧ after.code = 1 :=
  ⟨_, _, _, replays_ofTexts .., by decide +kernel, replays_ofTexts .., by decide +kernel,
    replays_ofTexts .., by decide +kernel⟩

end CommandLine

end MediaCache
