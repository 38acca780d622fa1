import MediaCache.Client.Service
import MediaCache.Proofs.Data.SortedMap
import MediaCache.Proofs.Store.Read
import MediaCache.Proofs.Update.Ended

/-!
# What a refresh asks for

A refresh is settled when it begins: it asks once for each watch that is missing then, in the order of
their ids, and writes the answers in that order. What it writes on the way changes neither the list nor
what is asked. After a reset every watch is on the list, since a read of an empty cache finds nothing.
-/

namespace MediaCache

variable {σ : Type}

/-! ## Replies -/

structure Reply where
  id : Nat
  watch : Watch
  answer : Except TransportError Json

def Transport.ask (t : Transport σ) (server : σ) : List (Nat × Watch) → List Reply × σ
  | [] => ([], server)
  | (id, w) :: rest =>
    let (answer, server) := t.query server w.doc w.args
    let (replies, server) := t.ask server rest
    (⟨id, w, answer⟩ :: replies, server)

namespace Reply

def answered (replies : List Reply) : List Nat := (replies.filter (·.answer.isOk)).map (·.id)

def failed (replies : List Reply) : List Nat := (replies.filter (!·.answer.isOk)).map (·.id)

end Reply

namespace Cache

def writeReply (c : Cache) (r : Reply) : Cache :=
  match r.answer with
  | .ok data => c.writeQuery r.watch.doc r.watch.args data
  | .error _ => c

def writeReplies (c : Cache) (replies : List Reply) : Cache := replies.foldl writeReply c

end Cache

@[simp]
theorem Transport.ids_ask (t : Transport σ) (server : σ) (due : List (Nat × Watch)) :
    (t.ask server due).1.map (·.id) = due.map (·.1) := by
  induction due generalizing server with
  | nil => rfl
  | cons w rest ih =>
    rw [ask, List.map_cons, List.map_cons, ih]

namespace Reply

variable (replies : List Reply)

theorem answered_append_failed_perm : (answered replies ++ failed replies).Perm (replies.map (·.id)) := by
  rw [answered, failed, ← List.map_append]
  exact (List.filter_append_perm _ replies).map _

theorem answered_sublist : (answered replies).Sublist (replies.map (·.id)) :=
  List.filter_sublist.map _

theorem failed_sublist : (failed replies).Sublist (replies.map (·.id)) :=
  List.filter_sublist.map _

end Reply

/-- The ids split into two ascending lists without a common member. -/
structure Splits (ids left right : List Nat) : Prop where
  left_ascending : left.Pairwise (· < ·)
  right_ascending : right.Pairwise (· < ·)
  disjoint : left.Disjoint right
  union : ∀ id, id ∈ ids ↔ id ∈ left ∨ id ∈ right

theorem Reply.splits {replies : List Reply} (h : (replies.map (·.id)).Pairwise (· < ·)) :
    Splits (replies.map (·.id)) (answered replies) (failed replies) := by
  have hperm := answered_append_failed_perm replies
  have hnodup : (replies.map (·.id)).Nodup := h.imp Nat.ne_of_lt
  have hboth : (answered replies ++ failed replies).Nodup := hperm.nodup_iff.2 hnodup
  refine ⟨h.sublist (answered_sublist replies), h.sublist (failed_sublist replies), ?_, ?_⟩
  · exact List.disjoint_of_nodup_append hboth
  · intro id
    rw [← hperm.mem_iff, List.mem_append]

theorem SortedMap.keys_ascending {β : Type} (m : SortedMap Nat β) : m.keys.Pairwise (· < ·) := by
  rw [keys, List.pairwise_map]
  exact m.ordered.imp fun h => Nat.compare_eq_lt.1 h

/-! ## Requests -/

inductive Request where
  | query (doc : Document) (args : Option Json)
  | mutate (m : Mutation)

def Transport.logged (t : Transport σ) : Transport (σ × List Request) where
  query server doc args :=
    let (answer, next) := t.query server.1 doc args
    (answer, next, server.2 ++ [.query doc args])
  mutate server m :=
    let (answer, next) := t.mutate server.1 m
    (answer, next, server.2 ++ [.mutate m])

namespace Service

def logged (s : Service σ) (log : List Request) : Service (σ × List Request) where
  transport := s.transport.logged
  server := (s.server, log)
  cache := s.cache
  options := s.options
  watches := s.watches
  nextWatch := s.nextWatch

end Service

def Watch.request (w : Watch) : Request := .query w.doc w.args

theorem Transport.ask_logged (t : Transport σ) (server : σ) (log : List Request)
    (due : List (Nat × Watch)) :
    t.logged.ask (server, log) due =
      ((t.ask server due).1, (t.ask server due).2, log ++ due.map (·.2.request)) := by
  induction due generalizing server log with
  | nil => simp [ask]
  | cons w rest ih =>
    have hquery : t.logged.query (server, log) w.2.doc w.2.args =
        ((t.query server w.2.doc w.2.args).1, (t.query server w.2.doc w.2.args).2,
          log ++ [w.2.request]) := rfl
    simp only [ask, hquery, ih, List.map_cons, List.append_assoc, List.singleton_append]

/-! ## One refresh -/

namespace Service

theorem foldl_refreshWatch (due : List (Nat × Watch)) (report : Refresh) (s : Service σ) :
    due.foldl refreshWatch (report, s) =
      let (replies, server) := s.transport.ask s.server due
      (⟨report.refetched ++ Reply.answered replies, report.stale ++ Reply.failed replies⟩,
        { s with server, cache := s.cache.writeReplies replies }) := by
  induction due generalizing report s with
  | nil => simp [Transport.ask, Reply.answered, Reply.failed, Cache.writeReplies]
  | cons w rest ih =>
    rw [List.foldl_cons, refreshWatch, fetch, Transport.ask]
    rcases s.transport.query s.server w.2.doc w.2.args with ⟨_ | data, server⟩
    · simp [ih, Reply.answered, Reply.failed, Except.isOk, Except.toBool, Cache.writeReplies,
        Cache.writeReply]
    · simp [ih, Reply.answered, Reply.failed, Except.isOk, Except.toBool, Cache.writeReplies,
        Cache.writeReply]

/-- A refresh asks for what is missing when it begins, and does nothing but write the answers. -/
theorem refreshWatches_eq (s : Service σ) :
    s.refreshWatches =
      let (replies, server) := s.transport.ask s.server s.missingWatches
      (⟨Reply.answered replies, Reply.failed replies⟩,
        { s with server, cache := s.cache.writeReplies replies }) := by
  rw [refreshWatches, foldl_refreshWatch]
  rfl

theorem refreshWatches_logged (s : Service σ) (log : List Request) :
    (s.logged log).refreshWatches =
      (s.refreshWatches.1,
        s.refreshWatches.2.logged (log ++ s.missingWatches.map (·.2.request))) := by
  rw [refreshWatches_eq, refreshWatches_eq]
  have hmissing : (s.logged log).missingWatches = s.missingWatches := rfl
  have hask : (s.logged log).transport.ask (s.logged log).server s.missingWatches = _ :=
    s.transport.ask_logged s.server log s.missingWatches
  simp only [hmissing, hask]
  rfl

/-- What a mutation did that the transport carried out, and the service with its cache brought up to
date but no watch asked for yet. -/
def applied (s : Service σ) (now : String) (m : Mutation) (result : Json) (server : σ) :
    Outcome × Service σ :=
  let (outcome, cache) :=
    s.cache.applyMutation s.options now m (if result.isNull then none else some result)
  (outcome, { s with server, cache })

@[simp]
theorem transport_applied (s : Service σ) (now : String) (m : Mutation) (result : Json) (server : σ) :
    (s.applied now m result server).2.transport = s.transport := rfl

@[simp]
theorem server_applied (s : Service σ) (now : String) (m : Mutation) (result : Json) (server : σ) :
    (s.applied now m result server).2.server = server := rfl

@[simp]
theorem watches_applied (s : Service σ) (now : String) (m : Mutation) (result : Json) (server : σ) :
    (s.applied now m result server).2.watches = s.watches := rfl

theorem mutate_eq (s : Service σ) (now : String) (m : Mutation) :
    s.mutate now m =
      match s.transport.mutate s.server m with
      | (.error e, server) => (.error (.transport e), { s with server })
      | (.ok result, server) =>
        let (outcome, hooked) := s.applied now m result server
        (.ok ⟨outcome, hooked.refreshWatches.1⟩, hooked.refreshWatches.2) := by
  rw [mutate]
  rfl

theorem mutate_of_ok {s : Service σ} {now : String} {m : Mutation} {result : Json} {server : σ}
    (h : s.transport.mutate s.server m = (.ok result, server)) :
    s.mutate now m =
      (.ok ⟨(s.applied now m result server).1, (s.applied now m result server).2.refreshWatches.1⟩,
        (s.applied now m result server).2.refreshWatches.2) := by
  rw [mutate_eq, h]

@[simp]
theorem watches_refreshWatches (s : Service σ) : s.refreshWatches.2.watches = s.watches := by
  rw [refreshWatches_eq]

@[simp]
theorem watches_mutate (s : Service σ) (now : String) (m : Mutation) :
    (s.mutate now m).2.watches = s.watches := by
  rw [mutate_eq]
  split
  · rfl
  · simp [applied]

@[simp]
theorem watches_handleEvent (s : Service σ) (event : ServerEvent) :
    (s.handleEvent event).2.watches = s.watches := by
  rw [handleEvent]
  split
  · simp
  · rfl

/-- A mutation whose sums fit is one. -/
theorem mutate_of_mutate? {s : Service σ} {now : String} {m : Mutation}
    {ended : Except ServiceError MutationReport × Service σ} (h : s.mutate? now m = some ended) :
    s.mutate now m = ended := by
  rw [mutate?] at h
  rw [mutate]
  split at h
  · cases h
    rfl
  · obtain ⟨applied, happlied, rfl⟩ := Option.map_eq_some_iff.1 h
    simp only [Cache.applyMutation_of_applyMutation? happlied]

/-! ## Watch ids -/

inductive ServiceCall where
  | watch (doc : Document) (args : Option Json)
  | unwatch (id : Nat)
  | mutate (now : String) (m : Mutation)
  | event (event : ServerEvent)

def call (s : Service σ) : ServiceCall → Option Nat × Service σ
  | .watch doc args =>
    match s.watch doc args with
    | (.ok (id, _), s) => (some id, s)
    | (.error _, s) => (none, s)
  | .unwatch id => (none, (s.unwatch id).2)
  | .mutate now m => (none, (s.mutate now m).2)
  | .event event => (none, (s.handleEvent event).2)

def handedOut (s : Service σ) : List ServiceCall → List Nat
  | [] => []
  | c :: rest =>
    let (id, s) := s.call c
    id.toList ++ s.handedOut rest

@[simp]
theorem nextWatch_fetch (s : Service σ) (doc : Document) (args : Option Json) :
    (s.fetch doc args).2.nextWatch = s.nextWatch := by
  rw [fetch]
  split <;> rfl

@[simp]
theorem nextWatch_query (s : Service σ) (doc : Document) (args : Option Json) :
    (s.query doc args).2.nextWatch = s.nextWatch := by
  rw [query]
  split
  · rfl
  · exact nextWatch_fetch s doc args

@[simp]
theorem nextWatch_refreshWatches (s : Service σ) :
    s.refreshWatches.2.nextWatch = s.nextWatch := by
  rw [refreshWatches_eq]

@[simp]
theorem nextWatch_mutate (s : Service σ) (now : String) (m : Mutation) :
    (s.mutate now m).2.nextWatch = s.nextWatch := by
  rw [mutate_eq]
  split
  · rfl
  · simp [applied]

@[simp]
theorem nextWatch_handleEvent (s : Service σ) (event : ServerEvent) :
    (s.handleEvent event).2.nextWatch = s.nextWatch := by
  rw [handleEvent]
  split
  · simp
  · rfl

theorem call_cases (s : Service σ) (c : ServiceCall) :
    ((s.call c).1 = some s.nextWatch ∧ (s.call c).2.nextWatch = s.nextWatch + 1) ∨
      ((s.call c).1 = none ∧ (s.call c).2.nextWatch = s.nextWatch) := by
  cases c with
  | watch doc args =>
    have hquery := nextWatch_query s doc args
    rw [call, watch]
    rcases h : s.query doc args with ⟨_ | data, next⟩ <;> rw [h] at hquery
    · exact .inr ⟨rfl, hquery⟩
    · exact .inl ⟨congrArg some hquery, congrArg (· + 1) hquery⟩
  | unwatch id =>
    refine .inr ⟨rfl, ?_⟩
    rw [call, unwatch]
    split <;> rfl
  | mutate now m => exact .inr ⟨rfl, nextWatch_mutate s now m⟩
  | event event => exact .inr ⟨rfl, nextWatch_handleEvent s event⟩

/-- The ids of a run ascend from the next one on, and there are at most as many as calls. -/
theorem handedOut_ascending (s : Service σ) (calls : List ServiceCall) :
    (s.handedOut calls).Pairwise (· < ·) ∧
      ∀ id ∈ s.handedOut calls, s.nextWatch ≤ id ∧ id < s.nextWatch + calls.length := by
  induction calls generalizing s with
  | nil => simp [handedOut]
  | cons c rest ih =>
    obtain ⟨hascending, hlater⟩ := ih (s.call c).2
    rw [handedOut, List.length_cons]
    rcases s.call_cases c with ⟨hid, hnext⟩ | ⟨hid, hnext⟩
    · rw [hnext] at hlater
      simp only [hid, Option.toList_some, List.singleton_append, List.pairwise_cons,
        List.mem_cons, forall_eq_or_imp]
      refine ⟨⟨fun id h => (hlater id h).1, hascending⟩, by omega, fun id h => ?_⟩
      have := hlater id h
      omega
    · rw [hnext] at hlater
      simp only [hid, Option.toList_none, List.nil_append]
      refine ⟨hascending, fun id h => ?_⟩
      have := hlater id h
      omega

/-- No run of fewer than `2 ^ 64` calls on a new service uses up the ids, which have 64 bits. -/
theorem handedOut_fits {s : Service σ} (hnew : s.nextWatch = 1) {calls : List ServiceCall}
    (hcalls : calls.length < 2 ^ 64) : ∀ id ∈ s.handedOut calls, id < 2 ^ 64 := by
  intro id hid
  have := ((s.handedOut_ascending calls).2 id hid).2
  omega

/-! ## The account of a call -/

theorem missingWatches_ascending (s : Service σ) : (s.missingWatches.map (·.1)).Pairwise (· < ·) :=
  s.watches.keys_ascending.sublist (List.filter_sublist.map _)

theorem mem_missingWatches_iff (s : Service σ) {id : Nat} {w : Watch} :
    (id, w) ∈ s.missingWatches ↔
      s.watches.get? id = some w ∧ s.cache.readQuery w.doc w.args = .missing := by
  rw [missingWatches, List.mem_filter, SortedMap.get?_eq_some_iff_mem]
  exact and_congr_right fun _ => ReadOutcome.isMissing_iff

/-- The report of a refresh accounts for the watches that were due: each is answered or failed. -/
theorem splits_ask (s : Service σ) {due : List (Nat × Watch)}
    (h : (due.map (·.1)).Pairwise (· < ·)) :
    Splits (due.map (·.1)) (Reply.answered (s.transport.ask s.server due).1)
      (Reply.failed (s.transport.ask s.server due).1) := by
  rw [← s.transport.ids_ask s.server] at h ⊢
  exact Reply.splits h

/-- A failed mutation changes nothing but the server. After one that was carried out, the watches that are
missing in the updated cache are asked for, each once and in the order of their ids; the report splits
them by how that went, and the answers are written over the updated cache. The ids of watches are never
used again. -/
theorem mutation_accounted (s : Service σ) (now : String) (m : Mutation) (log : List Request)
    (calls : List ServiceCall) :
    (match s.transport.mutate s.server m with
      | (.error e, server) =>
        s.mutate now m = (.error (.transport e), { s with server }) ∧
          (s.logged log).mutate now m =
            (.error (.transport e), Service.logged { s with server } (log ++ [.mutate m]))
      | (.ok result, server) =>
        let (outcome, hooked) := s.applied now m result server
        let due := hooked.missingWatches
        let (replies, last) := s.transport.ask server due
        let report : MutationReport := ⟨outcome, Reply.answered replies, Reply.failed replies⟩
        let after : Service σ := { s with server := last, cache := hooked.cache.writeReplies replies }
        (∀ id w, (id, w) ∈ due ↔
            s.watches.get? id = some w ∧ hooked.cache.readQuery w.doc w.args = .missing) ∧
          (due.map (·.1)).Pairwise (· < ·) ∧
          Splits (due.map (·.1)) report.refresh.refetched report.refresh.stale ∧
          s.mutate now m = (.ok report, after) ∧
          (s.logged log).mutate now m =
            (.ok report, after.logged (log ++ Request.mutate m :: due.map (·.2.request)))) ∧
      (s.handedOut calls).Nodup := by
  refine ⟨?_, (s.handedOut_ascending calls).1.imp Nat.ne_of_lt⟩
  have hlogged : (s.logged log).transport.mutate (s.logged log).server m =
      ((s.transport.mutate s.server m).1, (s.transport.mutate s.server m).2, log ++ [.mutate m]) := rfl
  rw [mutate_eq, mutate_eq, hlogged]
  rcases s.transport.mutate s.server m with ⟨e | result, server⟩
  · -- The call failed.
    exact ⟨rfl, rfl⟩
  · -- A transport that writes down its requests changes nothing else.
    have happlied : (s.logged log).applied now m result (server, log ++ [.mutate m]) =
        ((s.applied now m result server).1,
          (s.applied now m result server).2.logged (log ++ [.mutate m])) := rfl
    have hsplits := (s.applied now m result server).2.splits_ask
      (s.applied now m result server).2.missingWatches_ascending
    refine ⟨fun id w => mem_missingWatches_iff _, missingWatches_ascending _, hsplits, ?_, ?_⟩
    · simp only [refreshWatches_eq]
      rfl
    · simp only [happlied, refreshWatches_logged]
      simp only [refreshWatches_eq, List.append_assoc, List.singleton_append]
      rfl

def configured (language : String) : Json :=
  .object [("interface", .object [("language", .string language)])]

/-- Two watches of which only the first can be asked for again. -/
def restarting : Service Unit where
  transport :=
    ⟨fun _ doc _ =>
        (if doc.name = "Configuration" then .ok (configured "fr") else .error .unauthorized, ()),
      fun _ _ => (.ok (.bool true), ())⟩
  server := ()
  cache :=
    ((Cache.new .empty).writeQuery .configuration none (configured "en")).writeQuery .systemStatus none
      (.object [("status", .string "OK")])
  watches := .ofList [(1, ⟨.configuration, none⟩), (2, ⟨.systemStatus, none⟩)]
  nextWatch := 3

example : (restarting.mutate "" .migrate).1 = .ok ⟨.applied, ⟨[1], [2]⟩⟩ := by decide +kernel

example : (restarting.mutate "" .migrate).2.cache.readQuery .configuration none =
    .hit (configured "fr") := by
  cbv

/-! ## After a scan -/

theorem missingWatches_of_new {s : Service σ} {policies : Policies} (h : s.cache = .new policies) :
    s.missingWatches = s.watches.entries := by
  rw [missingWatches, List.filter_eq_self]
  intro e _
  rw [h, Cache.readQuery_new]
  rfl

/-- A completed scan asks for every watch and leaves nothing in the cache but the answers. -/
theorem handleEvent_scanComplete (s : Service σ) :
    s.handleEvent .scanComplete =
      let (replies, server) := s.transport.ask s.server s.watches.entries
      (⟨true, Reply.answered replies, Reply.failed replies⟩,
        { s with server, cache := (Cache.new s.cache.policies).writeReplies replies }) := by
  have hdue : ({ s with cache := s.cache.reset } : Service σ).missingWatches = s.watches.entries :=
    missingWatches_of_new rfl
  rw [handleEvent, ServerEvent.resetsCache, if_pos rfl]
  simp only [refreshWatches_eq, hdue]
  rfl

/-- After a scan the cache is an empty one with the answers to all watches, and every watch is reported
as answered or failed. -/
theorem scanComplete_leaves_answers (s : Service σ) (log : List Request) :
    let (replies, server) := s.transport.ask s.server s.watches.entries
    let report : EventReport := ⟨true, Reply.answered replies, Reply.failed replies⟩
    let after : Service σ :=
      { s with server, cache := (Cache.new s.cache.policies).writeReplies replies }
    s.handleEvent .scanComplete = (report, after) ∧
      (s.logged log).handleEvent .scanComplete =
        (report, after.logged (log ++ s.watches.entries.map (·.2.request))) ∧
      Splits s.watches.keys report.refresh.refetched report.refresh.stale := by
  have hasked := s.transport.ask_logged s.server log s.watches.entries
  refine ⟨handleEvent_scanComplete s, ?_, s.splits_ask s.watches.keys_ascending⟩
  rw [handleEvent_scanComplete]
  simp only [logged, hasked]

example : (restarting.handleEvent .scanComplete).1 = ⟨true, ⟨[1], [2]⟩⟩ := by decide +kernel

example : (restarting.handleEvent .scanComplete).2.cache.readQuery .configuration none =
    .hit (configured "fr") := by
  cbv

end Service

end MediaCache
