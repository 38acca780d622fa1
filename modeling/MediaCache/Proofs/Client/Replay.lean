import MediaCache.CommandLine.Run
import MediaCache.Proofs.Update.Clock
import MediaCache.Proofs.Update.Storable

/-!
# A replay is a fold

A replay applies its records one after another to the restored cache, and the service around the cache
does nothing else. Only if every line is carried out is anything printed or written, and that can be read
back.
-/

namespace MediaCache

namespace Cache

def applyRecord? (options : Options) (c : Cache) (r : MutationRecord × String) : Option Cache :=
  (c.applyMutation? options r.2 r.1.mutation r.1.result).map (·.2)

def applyRecords? (options : Options) (c : Cache) (records : List (MutationRecord × String)) :
    Option Cache :=
  records.foldlM (applyRecord? options) c

variable {options : Options} {c d : Cache}

theorem applyRecords?_cons (r : MutationRecord × String) (rest : List (MutationRecord × String)) :
    c.applyRecords? options (r :: rest) =
      (c.applyRecord? options r).bind (·.applyRecords? options rest) :=
  List.foldlM_cons

theorem applyRecords?_append (records more : List (MutationRecord × String)) :
    c.applyRecords? options (records ++ more) =
      (c.applyRecords? options records).bind (·.applyRecords? options more) :=
  List.foldlM_append

@[simp]
theorem accepts_null (kind : MutationKind) : kind.accepts .null = false := by
  unfold MutationKind.accepts
  split <;> rfl

/-- Only a result that is accepted matters. -/
theorem applyRecord?_congr {r : MutationRecord} {result : Option Json} {now : String}
    (h : result.filter r.mutation.kind.accepts = r.result.filter r.mutation.kind.accepts) :
    c.applyRecord? options (⟨r.mutation, result⟩, now) = c.applyRecord? options (r, now) := by
  simp only [applyRecord?, applyMutation?, h]

theorem applyRecord?_of_null {r : MutationRecord} (h : ∀ v ∈ r.result, v = .null) (now : String) :
    c.applyRecord? options (r, now) = some c := by
  have hskipped : r.result.filter r.mutation.kind.accepts = none := by
    cases hresult : r.result with
    | none => rfl
    | some v => rw [h v hresult, Option.filter_some, accepts_null, if_neg Bool.false_ne_true]
  rw [applyRecord?, applyMutation?, hskipped]
  rfl

theorem applyMutation_of_applyRecord? {r : MutationRecord × String} (h : c.applyRecord? options r = some d) :
    (c.applyMutation options r.2 r.1.mutation r.1.result).2 = d := by
  obtain ⟨applied, happlied, rfl⟩ := Option.map_eq_some_iff.1 h
  rw [applyMutation_of_applyMutation? happlied]

theorem Printable.applyRecords? {records : List (MutationRecord × String)}
    (hrecords : ∀ r ∈ records, r.1.Textual) {c : Cache} (h : c.Printable)
    (happly : c.applyRecords? options records = some d) : d.Printable := by
  induction records generalizing c with
  | nil =>
    cases happly
    exact h
  | cons r rest ih =>
    obtain ⟨hfirst, hrest⟩ := List.forall_mem_cons.1 hrecords
    rw [applyRecords?_cons] at happly
    obtain ⟨next, hnext, happly⟩ := Option.bind_eq_some_iff.1 happly
    refine ih hrest ?_ happly
    rw [← applyMutation_of_applyRecord? hnext]
    exact h.applyMutation hfirst options r.2

/-- The same records at other times lead to the same cache but for times. -/
theorem SameButTimes.applyRecords? {p q : String → Prop} (h : SameButTimes p q c d)
    {records others : List (MutationRecord × String)} (hsame : records.map (·.1) = others.map (·.1))
    (hp : ∀ r ∈ records, p r.2) (hq : ∀ r ∈ others, q r.2) :
    Option.Rel (SameButTimes p q) (c.applyRecords? options records) (d.applyRecords? options others) := by
  induction records generalizing c d others with
  | nil =>
    obtain rfl : others = [] := List.map_eq_nil_iff.1 hsame.symm
    exact .some h
  | cons r rest ih =>
    cases others with
    | nil => cases hsame
    | cons o others =>
      obtain ⟨hfirst, hsame⟩ := List.cons.inj hsame
      obtain ⟨hpfirst, hp⟩ := List.forall_mem_cons.1 hp
      obtain ⟨hqfirst, hq⟩ := List.forall_mem_cons.1 hq
      have hrel : Option.Rel (SameButTimes p q) (c.applyRecord? options r) (d.applyRecord? options o) := by
        rw [applyRecord?, applyRecord?, show o.1 = r.1 from hfirst.symm]
        exact h.applyMutation? hpfirst hqfirst r.1.mutation r.1.result
      rw [applyRecords?_cons, applyRecords?_cons]
      generalize c.applyRecord? options r = left, d.applyRecord? options o = right at hrel
      cases hrel with
      | none => exact .none
      | some hnext => exact ih hnext hsame hp hq

end Cache

/-! ## Lines and records -/

namespace Replay

open CommandLine

/-- The records of a log, one for each line that is not blank. Nothing when such a line is no record. -/
def records? (lines : List String) : Option (List MutationRecord) :=
  (lines.filter fun l => !isBlankText l).mapM MutationRecord.parse?

theorem records?_cons_blank {l : String} (h : isBlankText l = true) (rest : List String) :
    records? (l :: rest) = records? rest := by
  rw [records?, List.filter_cons_of_neg (by simp [h]), records?]

theorem records?_cons {l : String} (h : isBlankText l = false) (rest : List String) :
    records? (l :: rest) =
      (MutationRecord.parse? l).bind fun r => (records? rest).map (r :: ·) := by
  rw [records?, List.filter_cons_of_pos (by simp [h]), List.mapM_cons, records?]
  simp only [Option.bind_eq_bind, Option.pure_def, Option.map_eq_bind, Function.comp_def]

theorem records?_append (before after : List String) :
    records? (before ++ after) =
      (records? before).bind fun done => (records? after).map (done ++ ·) := by
  rw [records?, List.filter_append, List.mapM_append, records?, records?]
  simp only [Option.bind_eq_bind, Option.pure_def, Option.map_eq_bind, Function.comp_def]

/-- Some record, after those before it, has a sum that leaves 64 bits. -/
def Overflows (options : Options) (now : String) (c : Cache) (lines : List String) : Prop :=
  ∃ before line after done r d, lines = before ++ line :: after ∧ records? before = some done ∧
    isBlankText line = false ∧ MutationRecord.parse? line = some r ∧
    c.applyRecords? options (done.map (·, now)) = some d ∧
    d.applyRecord? options (r, now) = none

variable {options : Options} {now : String}

def service (options : Options) (c : Cache) (calls : List Call) : Service Script :=
  { transport := Script.transport, server := { calls }, cache := c, options }

def answering (options : Options) (c : Cache) (calls : List Call) (r : MutationRecord) : Service Script :=
  { service options c calls with
    server := (service options c calls).server.pushResult (r.result.getD .null) }

def answer (r : MutationRecord) : Option Json :=
  if (r.result.getD .null).isNull then none else some (r.result.getD .null)

theorem applyRecord?_answer (c : Cache) (r : MutationRecord) :
    c.applyRecord? options (⟨r.mutation, answer r⟩, now) = c.applyRecord? options (r, now) := by
  refine Cache.applyRecord?_congr ?_
  rw [answer]
  cases r.result with
  | none => rfl
  | some v =>
    cases v with
    | null => simp [Json.isNull, Option.filter_some]
    | _ => rfl

/-- Nothing else is scripted and nothing is watched, so only the cache and the log of calls change. -/
theorem mutate?_answering (c : Cache) (calls : List Call) (r : MutationRecord) :
    (answering options c calls r).mutate? now r.mutation =
      (c.applyMutation? options now r.mutation (answer r)).map fun applied =>
        (.ok ⟨applied.1, {}⟩, service options applied.2 (calls ++ [.mutate r.mutation.name])) := rfl

theorem record_eq (n : Nat) (c : Cache) (calls : List Call) (r : MutationRecord) :
    record now n (service options c calls) r =
      (c.applyRecord? options (r, now)).elim (.error (.overflow n)) fun d =>
        .ok (service options d (calls ++ [.mutate r.mutation.name])) := by
  have hmutate : (answering options c calls r).mutate? now r.mutation = _ := mutate?_answering c calls r
  unfold record
  rw [answering] at hmutate
  rw [← applyRecord?_answer, Cache.applyRecord?]
  dsimp only
  simp only [hmutate]
  cases c.applyMutation? options now r.mutation (answer r) <;> rfl

/-! ## Logs -/

theorem Overflows.cons_blank {c : Cache} {rest : List String} (h : Overflows options now c rest)
    {l : String} (hblank : isBlankText l = true) : Overflows options now c (l :: rest) := by
  obtain ⟨before, line, after, done, r, d, rfl, hdone, hrecord⟩ := h
  exact ⟨l :: before, line, after, done, r, d, rfl, (records?_cons_blank hblank before).trans hdone,
    hrecord⟩

theorem Overflows.cons {c d : Cache} {rest : List String} (h : Overflows options now d rest)
    {l : String} (hblank : isBlankText l = false) {r : MutationRecord}
    (hparse : MutationRecord.parse? l = some r) (happly : c.applyRecord? options (r, now) = some d) :
    Overflows options now c (l :: rest) := by
  obtain ⟨before, line, after, done, o, e, rfl, hdone, hline, ho, he, hnone⟩ := h
  refine ⟨l :: before, line, after, r :: done, o, e, rfl, ?_, hline, ho, ?_, hnone⟩
  · rw [records?_cons hblank, hparse, hdone]
    rfl
  · rw [List.map_cons, Cache.applyRecords?_cons, happly]
    exact he

theorem Overflows.applyRecords?_eq_none {c : Cache} {ls : List String}
    (h : Overflows options now c ls) {records : List MutationRecord} (hrecords : records? ls = some records) :
    c.applyRecords? options (records.map (·, now)) = none := by
  obtain ⟨before, line, after, done, r, d, rfl, hdone, hline, hr, hd, hnone⟩ := h
  rw [records?_append, hdone, records?_cons hline, hr] at hrecords
  obtain ⟨rest, hrest, rfl⟩ := Option.map_eq_some_iff.1 hrecords
  obtain ⟨others, -, rfl⟩ := Option.map_eq_some_iff.1 hrest
  rw [List.map_append, List.map_cons, Cache.applyRecords?_append, hd, Option.bind_some,
    Cache.applyRecords?_cons, hnone, Option.bind_none]

/-- What becomes of a log: all lines are carried out, one is no record, or one has a sum that leaves
64 bits. -/
inductive Ends (options : Options) (now : String) (c : Cache) (ls : List String) :
    Except ReplayError (Service Script) → Prop
  | carriedOut {records : List MutationRecord} {d : Cache} (calls : List Call)
      (hrecords : records? ls = some records)
      (happly : c.applyRecords? options (records.map (·, now)) = some d) :
      Ends options now c ls (.ok (service options d calls))
  | invalid (n : Nat) (hrecords : records? ls = none) :
      Ends options now c ls (.error (.invalidRecord n))
  | overflow (n : Nat) (h : Overflows options now c ls) : Ends options now c ls (.error (.overflow n))

theorem Ends.cons_blank {c : Cache} {rest : List String} {e : Except ReplayError (Service Script)}
    (h : Ends options now c rest e) {l : String} (hblank : isBlankText l = true) :
    Ends options now c (l :: rest) e := by
  cases h with
  | carriedOut calls hrecords happly =>
    exact .carriedOut calls ((records?_cons_blank hblank rest).trans hrecords) happly
  | invalid n hrecords => exact .invalid n ((records?_cons_blank hblank rest).trans hrecords)
  | overflow n h => exact .overflow n (h.cons_blank hblank)

theorem Ends.cons {c d : Cache} {rest : List String} {e : Except ReplayError (Service Script)}
    (h : Ends options now d rest e) {l : String} (hblank : isBlankText l = false) {r : MutationRecord}
    (hparse : MutationRecord.parse? l = some r) (happly : c.applyRecord? options (r, now) = some d) :
    Ends options now c (l :: rest) e := by
  cases h with
  | carriedOut calls hrecords hrest =>
    refine .carriedOut calls (by rw [records?_cons hblank, hparse, hrecords]; rfl) ?_
    rw [List.map_cons, Cache.applyRecords?_cons, happly]
    exact hrest
  | invalid n hrecords => exact .invalid n (by rw [records?_cons hblank, hparse, hrecords]; rfl)
  | overflow n h => exact .overflow n (h.cons hblank hparse happly)

theorem line_of_blank {l : String} (h : isBlankText l = true) (s : Service Script) (n : Nat) :
    line now s (l, n) = .ok s := by
  rw [line, if_pos h]

theorem line_of_text {l : String} (h : isBlankText l = false) (s : Service Script) (n : Nat) :
    line now s (l, n) = (MutationRecord.parse? l).elim (.error (.invalidRecord n)) (record now n s) := by
  rw [line, if_neg (by simp [h])]
  cases MutationRecord.parse? l <;> rfl

theorem ends (c : Cache) (calls : List Call) (ls : List String) (n : Nat) :
    Ends options now c ls ((ls.zipIdx n).foldlM (line now) (service options c calls)) := by
  induction ls generalizing c calls n with
  | nil => exact .carriedOut calls rfl rfl
  | cons l rest ih =>
    rw [List.zipIdx_cons, List.foldlM_cons]
    cases hblank : isBlankText l with
    | true =>
      rw [line_of_blank hblank]
      exact (ih c calls (n + 1)).cons_blank hblank
    | false =>
      rw [line_of_text hblank]
      cases hparse : MutationRecord.parse? l with
      | none => exact .invalid n (by rw [records?_cons hblank, hparse]; rfl)
      | some r =>
        rw [Option.elim_some, record_eq]
        cases happly : c.applyRecord? options (r, now) with
        | none => exact .overflow n ⟨[], l, rest, [], r, c, rfl, rfl, hblank, hparse, rfl, happly⟩
        | some d =>
          exact (ih d (calls ++ [.mutate r.mutation.name]) (n + 1)).cons hblank hparse happly

/-- A sum that leaves 64 bits ends the replay, whatever stands in the lines after it. -/
theorem Overflows.stops {c : Cache} {ls : List String} (h : Overflows options now c ls)
    (calls : List Call) (n : Nat) :
    ∃ stop, (ls.zipIdx n).foldlM (line now) (service options c calls) = .error (.overflow stop) := by
  obtain ⟨before, l, after, done, r, d, rfl, hdone, hblank, hparse, hd, hnone⟩ := h
  induction before generalizing c calls n done with
  -- This line holds the record.
  | nil =>
    cases hdone
    cases hd
    refine ⟨n, ?_⟩
    rw [List.nil_append, List.zipIdx_cons, List.foldlM_cons, line_of_text hblank, hparse,
      Option.elim_some, record_eq, hnone]
    rfl
  -- The lines before it are blank or are carried out.
  | cons first before ih =>
    rw [List.cons_append, List.zipIdx_cons, List.foldlM_cons]
    cases hfirst : isBlankText first with
    | true =>
      rw [line_of_blank hfirst]
      exact ih calls (n + 1) done ((records?_cons_blank hfirst before).symm.trans hdone) hd
    | false =>
      rw [records?_cons hfirst] at hdone
      obtain ⟨o, ho, hdone⟩ := Option.bind_eq_some_iff.1 hdone
      obtain ⟨others, hothers, rfl⟩ := Option.map_eq_some_iff.1 hdone
      rw [List.map_cons, Cache.applyRecords?_cons] at hd
      obtain ⟨next, hnext, hd⟩ := Option.bind_eq_some_iff.1 hd
      rw [line_of_text hfirst, ho, Option.elim_some, record_eq, hnext]
      exact ih _ (n + 1) others hothers hd

theorem parse?_of_mem {ls : List String} {records : List MutationRecord} (h : records? ls = some records)
    {r : MutationRecord} (hr : r ∈ records) : ∃ l ∈ ls, MutationRecord.parse? l = some r := by
  obtain ⟨l, hl, hparse⟩ := Cache.mem_of_mapM h r hr
  exact ⟨l, List.mem_of_mem_filter hl, hparse⟩

theorem textual_of_records? {ls : List String} {records : List MutationRecord}
    (h : records? ls = some records) : ∀ r ∈ records, r.Textual := by
  intro r hr
  obtain ⟨l, -, hparse⟩ := parse?_of_mem h hr
  exact MutationRecord.textual_of_parse? hparse

@[simp]
theorem map_timed (records : List MutationRecord) (now : String) :
    (records.map (·, now)).map (·.1) = records := by
  rw [List.map_map]
  exact List.map_id _

/-! ## Starts -/

/-- The text is a snapshot, and an empty cache takes it over as this cache. -/
def Restores (stored : String) (start : Cache) : Prop :=
  ∃ snapshot, Snapshot.parse? stored = some snapshot ∧ (Cache.new .standard).restore snapshot = .ok start

theorem start_eq_ok_iff {stored : String} {start : Cache} :
    Replay.start stored = .ok start ↔ Restores stored start := by
  unfold Replay.start Restores
  cases Snapshot.parse? stored with
  | none => simp
  | some snapshot =>
    simp only [Option.some.injEq, exists_eq_left']
    cases (Cache.new .standard).restore snapshot <;> simp

theorem Restores.storable {stored : String} {start : Cache} (h : Restores stored start) :
    start.Storable ∧ start.policies = .standard ∧ start.retained = ∅ := by
  obtain ⟨snapshot, hparse, hrestore⟩ := h
  exact Cache.storable_of_restore (Snapshot.textual_of_parse? hparse) hrestore

end Replay

/-! ## The command -/

namespace CommandLine

open Replay

def Exit.ofSnapshot (out : Option String) (result : Snapshot) : Exit :=
  match out with
  | some path => { output := some (path, result.render) }
  | none => .success result.render

/-- What the run wrote to a file or, without one, printed. -/
def Exit.saved (e : Exit) : String :=
  match e.output with
  | some (_, text) => text
  | none => e.stdout

theorem Exit.saved_ofSnapshot (out : Option String) (result : Snapshot) :
    ∃ spaces : List Char, (∀ c ∈ spaces, Json.Scanner.isSpace c = true) ∧
      (Exit.ofSnapshot out result).saved = result.render ++ String.ofList spaces := by
  cases out with
  | none => exact ⟨['\n'], List.forall_mem_singleton.2 rfl, rfl⟩
  | some path => exact ⟨[], List.forall_mem_nil _, String.append_empty.symm⟩

/-- The run ends without an error, and what it saves is the snapshot. -/
structure Exit.Saves (e : Exit) (out : Option String) (result : Snapshot) : Prop where
  code : e.code = 0
  exit : e = .ofSnapshot out result
  shown : result.Shown e.saved

theorem Exit.saves_ofSnapshot (out : Option String) {result : Snapshot}
    (h : result.Textual none none) : (Exit.ofSnapshot out result).Saves out result := by
  obtain ⟨spaces, hspaces, hsaved⟩ := Exit.saved_ofSnapshot out result
  refine ⟨by cases out <;> rfl, rfl, ?_⟩
  rw [hsaved]
  exact h.shown_render hspaces

/-- A run with an error and nothing else. -/
def Exit.Failed (e : Exit) (code : Nat) : Prop :=
  e.code = code ∧ e.stdout = "" ∧ e.output = none

def replayOptions (config : Config) : Options := { collectAfterEvict := config.settings.gcAfterEvict }

variable {s : Surroundings} {options : Options} {snapshot log : String} {out : Option String}
  {stored recorded : String}

theorem replayFiles_eq {now : String} (hstored : (s.files snapshot).text = .ok stored)
    (hrecorded : (s.files log).text = .ok recorded) :
    replayFiles options now (s.files snapshot) (s.files log) =
      (Replay.start stored).bind fun start =>
        (((lines recorded).zipIdx 1).foldlM (line now) (service options start [])).bind fun final =>
          .ok final.cache.extract := by
  rw [replayFiles, hstored, hrecorded]
  rfl

theorem replayLog_refused (hstored : (s.files snapshot).text = .ok stored)
    (hrecorded : (s.files log).text = .ok recorded) {e : ReplayError}
    (hstart : Replay.start stored = .error e) :
    (replayLog s options snapshot log out).Failed (replayCode e) := by
  unfold replayLog
  rw [replayFiles_eq hstored hrecorded, hstart]
  exact ⟨rfl, rfl, rfl⟩

theorem replayCode_of_start {e : ReplayError} (h : Replay.start stored = .error e) :
    replayCode e = 1 := by
  unfold Replay.start at h
  split at h
  · cases h
    rfl
  · split at h
    · cases h
      rfl
    · cases h

theorem replayLog_eq (hstored : (s.files snapshot).text = .ok stored)
    (hrecorded : (s.files log).text = .ok recorded) {start : Cache}
    (hstart : Replay.start stored = .ok start) :
    replayLog s options snapshot log out =
      match ((lines recorded).zipIdx 1).foldlM (line s.nowInMilliseconds) (service options start []) with
      | .ok final => .ofSnapshot out final.cache.extract
      | .error e => { Exit.failure (e.message snapshot log) with code := replayCode e } := by
  unfold replayLog
  rw [replayFiles_eq hstored hrecorded, hstart]
  simp only [Except.bind]
  cases ((lines recorded).zipIdx 1).foldlM (line s.nowInMilliseconds) (service options start []) with
  | error e => rfl
  | ok final => cases out <;> rfl

theorem replayLog_ends (hstored : (s.files snapshot).text = .ok stored)
    (hrecorded : (s.files log).text = .ok recorded) {start : Cache}
    (hstart : Replay.start stored = .ok start) :
    ∃ final, Ends options s.nowInMilliseconds start (lines recorded) final ∧
      replayLog s options snapshot log out =
        match final with
        | .ok final => .ofSnapshot out final.cache.extract
        | .error e => { Exit.failure (e.message snapshot log) with code := replayCode e } :=
  ⟨_, ends start [] (lines recorded) 1, replayLog_eq hstored hrecorded hstart⟩

theorem Exit.failure_failed (e : ReplayError) (code : Nat) :
    Exit.Failed { Exit.failure (e.message snapshot log) with code } code :=
  ⟨rfl, rfl, rfl⟩

theorem replayLog_of_applyRecords? (hstored : (s.files snapshot).text = .ok stored)
    (hrecorded : (s.files log).text = .ok recorded) {start c : Cache}
    (hstart : Replay.start stored = .ok start) {records : List MutationRecord}
    (hrecords : records? (lines recorded) = some records)
    (happly : start.applyRecords? options (records.map (·, s.nowInMilliseconds)) = some c) :
    replayLog s options snapshot log out = .ofSnapshot out c.extract := by
  obtain ⟨final, hends, hexit⟩ := replayLog_ends hstored hrecorded hstart
  rw [hexit]
  cases hends with
  | carriedOut calls hdone hend =>
    cases hdone.symm.trans hrecords
    cases hend.symm.trans happly
    rfl
  | invalid n hdone => cases hdone.symm.trans hrecords
  | overflow n hover => cases (hover.applyRecords?_eq_none hrecords).symm.trans happly

theorem replayLog_saves (hstored : (s.files snapshot).text = .ok stored)
    (hrecorded : (s.files log).text = .ok recorded) {start : Cache} (hstart : Restores stored start)
    {timed : List (MutationRecord × String)}
    (hrecords : records? (lines recorded) = some (timed.map (·.1))) {c : Cache}
    (happly : start.applyRecords? options timed = some c) :
    ∃ result, Snapshot.SameButTimes (· = s.nowInMilliseconds) (· ∈ timed.map (·.2)) result c.extract ∧
      (replayLog s options snapshot log out).Saves out result := by
  -- The replay reads its own clock, so its cache is compared with that of the records at their times.
  have hsame : Option.Rel (Cache.SameButTimes (· = s.nowInMilliseconds) (· ∈ timed.map (·.2)))
      (start.applyRecords? options ((timed.map (·.1)).map (·, s.nowInMilliseconds)))
      (start.applyRecords? options timed) := by
    refine (Cache.SameButTimes.refl start).applyRecords? (by simp) (fun r hr => ?_)
      (fun r hr => List.mem_map_of_mem hr)
    obtain ⟨_, _, rfl⟩ := List.mem_map.1 hr
    rfl
  rw [happly] at hsame
  cases hown : start.applyRecords? options ((timed.map (·.1)).map (·, s.nowInMilliseconds)) with
  | none =>
    rw [hown] at hsame
    cases hsame
  | some own =>
    rw [hown] at hsame
    cases hsame with
    | some h =>
      have hprintable : own.Printable := hstart.storable.1.printable.applyRecords?
        (List.forall_mem_map.2 (textual_of_records? hrecords)) hown
      refine ⟨own.extract, h.extract, ?_⟩
      rw [replayLog_of_applyRecords? hstored hrecorded (start_eq_ok_iff.2 hstart) hrecords hown]
      exact Exit.saves_ofSnapshot out hprintable.extract

theorem replayLog_overflows (hstored : (s.files snapshot).text = .ok stored)
    (hrecorded : (s.files log).text = .ok recorded) {start : Cache} (hstart : Restores stored start)
    (hover : Overflows options s.nowInMilliseconds start (lines recorded)) :
    (replayLog s options snapshot log out).Failed 101 := by
  obtain ⟨stop, hstop⟩ := hover.stops [] 1
  rw [replayLog_eq hstored hrecorded (start_eq_ok_iff.2 hstart), hstop]
  exact Exit.failure_failed _ _

/-- Either the snapshot is refused, or some line is no record. -/
theorem replayLog_fails (hstored : (s.files snapshot).text = .ok stored)
    (hrecorded : (s.files log).text = .ok recorded)
    (hnone : ∀ start timed, Restores stored start →
      records? (lines recorded) = some (timed.map (·.1)) → start.applyRecords? options timed = none)
    (hnever : ∀ start, Restores stored start →
      ¬Overflows options s.nowInMilliseconds start (lines recorded)) :
    (replayLog s options snapshot log out).Failed 1 := by
  cases hstart : Replay.start stored with
  | error e => exact replayCode_of_start hstart ▸ replayLog_refused hstored hrecorded hstart
  | ok start =>
    have hrestores := start_eq_ok_iff.1 hstart
    obtain ⟨final, hends, hexit⟩ := replayLog_ends hstored hrecorded hstart
    rw [hexit]
    cases hends with
    | carriedOut calls hrecords happly =>
      have hnot := hnone start _ hrestores
        (hrecords.trans (congrArg some (map_timed _ s.nowInMilliseconds).symm))
      cases hnot.symm.trans happly
    | invalid n hrecords => exact Exit.failure_failed _ _
    | overflow n h => exact absurd h (hnever start hrestores)

/-- A replay whose snapshot and records are all readable saves what applying the records one after another
leads to, whenever they are applied, but for the times of plays. It stops with a code of its own when a
sum in these updates leaves 64 bits, and fails in every other case; then it prints and writes nothing. A
record without a result changes nothing. -/
theorem replay_folds (s : Surroundings) (config : Config) (snapshot log : String) (out : Option String)
    {stored recorded : String} (hstored : (s.files snapshot).text = .ok stored)
    (hrecorded : (s.files log).text = .ok recorded) :
    let options := replayOptions config
    let exit := (Command.replay snapshot log out).run s config
    (∀ start timed c, Restores stored start → records? (lines recorded) = some (timed.map (·.1)) →
      start.applyRecords? options timed = some c →
      ∃ result, Snapshot.SameButTimes (· = s.nowInMilliseconds) (· ∈ timed.map (·.2)) result c.extract ∧
        exit.Saves out result) ∧
    (∀ start, Restores stored start → Overflows options s.nowInMilliseconds start (lines recorded) →
      exit.Failed 101) ∧
    ((∀ start timed, Restores stored start → records? (lines recorded) = some (timed.map (·.1)) →
        start.applyRecords? options timed = none) →
      (∀ start, Restores stored start →
        ¬Overflows options s.nowInMilliseconds start (lines recorded)) →
      exit.Failed 1) ∧
    ∀ (c : Cache) (r : MutationRecord) (now : String), (∀ v ∈ r.result, v = .null) →
      c.applyRecord? options (r, now) = some c := by
  intro options exit
  refine ⟨fun start timed c hstart hrecords happly => ?_, fun start hstart hover => ?_,
    fun hnone hnever => ?_, fun c r now hnull => Cache.applyRecord?_of_null hnull now⟩
  · exact replayLog_saves hstored hrecorded hstart hrecords happly
  · exact replayLog_overflows hstored hrecorded hstart hover
  · exact replayLog_fails hstored hrecorded hnone hnever

def playedSnapshot : String :=
  "\x7b\"objects\":\x7b\"ROOT_QUERY\":\x7b\"findScene\":\x7b\"__ref\":\"Scene:1\"\x7d\x7d," ++
  "\"Scene:1\":\x7b\"play_count\":2,\"last_played_at\":null\x7d\x7d\x7d"

/-- It is played again, and no tag is created. -/
def playedLog : String :=
  "\n[[\"sceneIncrementPlayCount\",\x7b\"id\":\"1\"\x7d],3]\r\n  \n[[\"tagCreate\",\x7b\x7d],null]"

def Surroundings.ofTexts (stored recorded now : String) : Surroundings where
  calledName := "stash-cache"
  files path := .ok (if path = "snapshot" then stored else recorded).toUTF8
  home := none
  now
  nowInMilliseconds := now

def plainConfig : Config := ⟨1, "", "", Config.defaults, [], [], {}⟩

def replayTexts (stored recorded now : String) : Exit :=
  (Command.replay "snapshot" "log" none).run (.ofTexts stored recorded now) plainConfig

theorem text_toUTF8 (text : String) : FileContent.text (.ok text.toUTF8) = .ok text := by
  have hread : String.fromUTF8? text.toUTF8 = some text := dif_pos text.isValidUTF8
  rw [FileContent.text, hread]

def playedRecords : List (MutationRecord × String) := [
  (⟨.sceneIncrementPlayCount "1", some (.int 3)⟩, "2023-01-01T00:00:00.000Z"),
  (⟨.tagCreate, none⟩, "2023-01-02T00:00:00.000Z")]

theorem restores_of_isSome {stored : String} (h : (Replay.start stored).toOption.isSome = true) :
    ∃ start, Restores stored start := by
  cases hstart : Replay.start stored with
  | error e =>
    rw [hstart] at h
    cases h
  | ok start => exact ⟨start, start_eq_ok_iff.1 hstart⟩

/-- The second record returned nothing, and the times are others than that of the replay. -/
theorem played_scene_replayed :
    FileContent.text ((Surroundings.ofTexts playedSnapshot playedLog "2024").files "snapshot") =
      .ok playedSnapshot ∧
    FileContent.text ((Surroundings.ofTexts playedSnapshot playedLog "2024").files "log") =
      .ok playedLog ∧
    records? (lines playedLog) = some (playedRecords.map (·.1)) ∧
    ∃ start c result, Restores playedSnapshot start ∧ start.applyRecords? {} playedRecords = some c ∧
      Snapshot.SameButTimes (· = "2024") (· ∈ playedRecords.map (·.2)) result c.extract ∧
      (replayTexts playedSnapshot playedLog "2024").Saves none result := by
  have hrecords : records? (lines playedLog) = some (playedRecords.map (·.1)) := by decide +kernel
  have hfold : ((Replay.start playedSnapshot).toOption.bind
      (·.applyRecords? {} playedRecords)).isSome = true := by decide +kernel
  have hstored := text_toUTF8 playedSnapshot
  have hlog := text_toUTF8 playedLog
  cases hstart : Replay.start playedSnapshot with
  | error e =>
    rw [hstart] at hfold
    cases hfold
  | ok start =>
    rw [hstart] at hfold
    obtain ⟨c, hc⟩ := Option.isSome_iff_exists.1 hfold
    have hrestores := start_eq_ok_iff.1 hstart
    obtain ⟨result, hsame, hrun⟩ := (replay_folds (.ofTexts playedSnapshot playedLog "2024") plainConfig
      "snapshot" "log" none hstored hlog).1 start playedRecords c hrestores hrecords hc
    exact ⟨hstored, hlog, hrecords, start, c, result, hrestores, hc, hsame, hrun⟩

/-- As many tags are counted as 64 bits can hold. -/
def fullSnapshot : String :=
  "\x7b\"objects\":\x7b\"ROOT_QUERY\":\x7b\"stats\":\x7b\"tag_count\":9223372036854775807\x7d\x7d\x7d\x7d"

def newTagLog : String := "[[\"tagCreate\",\x7b\x7d],\x7b\"id\":\"1\"\x7d]"

/-- The snapshot is restored and the record is read, but the count of tags cannot take it. -/
theorem new_tag_stops_replay :
    (∃ start, Restores fullSnapshot start) ∧
      records? (lines newTagLog) = some [⟨.tagCreate, some (.object [("id", .string "1")])⟩] ∧
      (replayTexts fullSnapshot newTagLog "2024").Failed 101 := by
  refine ⟨restores_of_isSome (by decide +kernel), by decide +kernel, by decide +kernel, ?_, ?_⟩
  · decide +kernel
  · decide +kernel

end CommandLine

end MediaCache
