import OracleThin.Pool.Edits
import OracleThin.Pool.Sections

/-!
# The stages of a request

`RequestInv` relates the flags of a request to each other and to the point of the worker's loop: why a request holds a
connection, when it waits for a ping, and what the worker may rely on while it processes a request off the lock.
Every request satisfies it in every reachable state (`requestsInv_step`).
-/

namespace OracleThin.Pool

open Lib

variable {C : Type}

/-! ### Identifiers -/

/-- The request the worker has picked and not finished. -/
def Worker.request : Worker C → Option Nat
  | .top current => current
  | .processing rid => some rid
  | .pinging rid _ => some rid
  | .pinged rid _ => some rid
  | .creating rid _ _ _ _ => some rid
  | .createdFor rid _ _ => some rid
  | .postProcess rid => some rid
  | _ => none

/-- The worker has emptied the slot of its request. -/
def Worker.emptied : Worker C → Bool
  | .pinging _ _ => true
  | .pinged _ _ => true
  | .creating _ _ _ _ _ => true
  | .createdFor _ _ _ => true
  | _ => false

/-- The open effect the worker is executing. -/
def Worker.inFlight : Worker C → List Nat
  | .opening connId _ => [connId]
  | .opened connId _ => [connId]
  | _ => []

/-- The requests have identifiers of their own, also the one the worker has picked, and the open effect in flight is
the worker's. -/
structure Keyed (s : PoolState C) (wk : Worker C) : Prop where
  inFlight : s.inFlightOpenEffects = wk.inFlight
  keys : s.keys.Nodup
  keysLt : ∀ k ∈ s.keys, k < s.nextRequestId
  workerLt : ∀ rid, wk.request = some rid → rid < s.nextRequestId

variable {f : Request C → Request C} {connId : Nat}

namespace Keyed

variable {s t : PoolState C} {wk wk' : Worker C} {g l : Multiset Nat}

/-- A section that adds no request, after which the worker has no other request than before. -/
theorem of_sublist (h : Keyed s wk) (hkeys : t.keys.Sublist s.keys) (hnext : t.nextRequestId = s.nextRequestId)
    (hflight : t.inFlightOpenEffects = wk'.inFlight) (hreq : ∀ rid, wk'.request = some rid → wk.request = some rid) :
    Keyed t wk' where
  inFlight := hflight
  keys := hkeys.nodup h.keys
  keysLt k hk := by rw [hnext]; exact h.keysLt k (hkeys.subset hk)
  workerLt rid hr := by rw [hnext]; exact h.workerLt rid (hreq rid hr)

theorem moves (h : Keyed s wk) (hm : Moves s t g l) : Keyed t wk :=
  h.of_sublist hm.keys hm.nextRequestId (hm.inFlight.trans h.inFlight) fun _ => id

theorem modifyFirst (h : Keyed s wk) {p : Request C → Bool} (hid : ∀ r, (f r).id = r.id) :
    Keyed { s with requests := Lib.modifyFirst p f s.requests } wk :=
  h.of_sublist (by rw [PoolState.keys, keys_modifyFirst hid]; exact List.Sublist.refl _) rfl h.inFlight fun _ => id

theorem removeRequest (h : Keyed s wk) (rid : Nat) : Keyed (s.removeRequest rid) wk :=
  h.of_sublist ((List.eraseP_sublist).map _) rfl h.inFlight fun _ => id

theorem advance (h : Keyed s wk) (hflight : wk'.inFlight = wk.inFlight)
    (hreq : wk'.request = wk.request ∨ wk'.request = none) : Keyed s wk' := by
  refine h.of_sublist (List.Sublist.refl _) rfl (h.inFlight.trans hflight.symm) fun rid hr => ?_
  rcases hreq with heq | heq
  · exact heq.symm.trans hr
  · rw [heq] at hr; cases hr

theorem work (h : Keyed s wk) {rid : Nat} (hid : ∀ r, (f r).id = r.id) (hflight : wk'.inFlight = wk.inFlight)
    (hreq : wk'.request = wk.request ∨ wk'.request = none) : Keyed (s.modifyRequest rid f) wk' :=
  (h.modifyFirst hid).advance hflight hreq

theorem enqueueRequest (h : Keyed s wk) (opts : AcquireOptions) : Keyed (enqueueRequest s opts).2 wk := by
  unfold Pool.enqueueRequest
  split
  · exact h
  · refine ⟨h.inFlight, ?_, fun k hk => ?_, fun rid hr => Nat.lt_succ_of_lt (h.workerLt rid hr)⟩
    · simp only [PoolState.keys, List.map_append, List.map_cons, List.map_nil, List.nodup_append]
      refine ⟨h.keys, by simp, fun a ha b hb => ?_⟩
      rw [List.mem_singleton.1 hb]
      exact Nat.ne_of_lt (h.keysLt a ha)
    · simp only [PoolState.keys, List.map_append, List.map_cons, List.map_nil, List.mem_append,
        List.mem_singleton] at hk
      rcases hk with hk | rfl
      · exact Nat.lt_succ_of_lt (h.keysLt k hk)
      · exact Nat.lt_succ_self _

theorem configure (h : Keyed s wk) (setting : Setting) : Keyed (setting.apply s) wk := by
  cases setting with
  | getmode value => rw [Setting.apply]; split <;> exact { h with }
  | _ => exact { h with }

theorem takeOpenEffect {cclass : Option String} (h : Keyed s .effects)
    (hlast : (takeOpenEffect s).inFlightOpenEffects.getLast? = some connId) :
    Keyed (takeOpenEffect s) (.opening connId cclass) := by
  have hflight : s.inFlightOpenEffects = [] := h.inFlight
  unfold Pool.takeOpenEffect at hlast ⊢
  cases hopen : s.openEffects with
  | nil => simp only [hopen, hflight, List.getLast?_nil] at hlast; cases hlast
  | cons first rest =>
    simp only [hopen, hflight, List.nil_append, List.getLast?_singleton] at hlast ⊢
    cases hlast
    exact ⟨rfl, h.keys, h.keysLt, fun _ hr => by cases hr⟩

theorem postCreateConn {result : Except String (PooledConn C)} (h : Keyed s (.opened connId result)) :
    Keyed (postCreateConn s connId result) (.top none) := by
  have hdone : Keyed (completeOpenEffect s connId) (.top none) := by
    refine h.of_sublist (List.Sublist.refl _) rfl ?_ fun _ hr => by cases hr
    rw [completeOpenEffect, h.inFlight]
    simp [Worker.inFlight]
  exact hdone.moves (polled_postCreateConn s connId result).toMoves

end Keyed

/-! ### The stages -/

/-- `post_process_request` is about to run for the request. -/
def Worker.posts (rid : Nat) : Worker C → Bool
  | .postProcess requestId => requestId == rid
  | _ => false

/-- What the worker may rely on about its request `r` while it does not hold the lock. -/
def Worker.Stage (r : Request C) : Worker C → Prop
  | .pinging _ _ => r.requiresPing = true ∧ r.conn = none ∧ r.error = none
  | .pinged _ _ => r.requiresPing = true ∧ r.conn = none ∧ r.error = none
  | .creating _ _ _ _ _ =>
    r.requiresPing = false ∧ r.conn = none ∧ r.error = none ∧ (r.isReplacing || r.isExtra || !r.cclassMatches) = true
  | .createdFor _ _ _ =>
    r.requiresPing = false ∧ r.conn = none ∧ r.error = none ∧ (r.isReplacing || r.isExtra || !r.cclassMatches) = true
  | .postProcess _ => True
  | _ => r.error = none

/-- The flags of a request. -/
structure RequestInv (isOpen : Bool) (creation : Option String) (wk : Worker C) (r : Request C) : Prop where
  matching : r.cclassMatches = (r.cclass.isNone || r.cclass == creation)
  /-- A request that failed has no connection and is not queued any more, or about to be taken off the queue. -/
  error : r.error.isSome = true →
    r.conn = none ∧ r.completed = false ∧ (r.bgProcessing = false ∨ wk.posts r.id = true)
  completed : r.completed = true → r.bgProcessing = false
  abandoned : r.waiting = false → r.bgProcessing = true
  inProgress : isOpen = true → r.inProgress = true → wk.request = some r.id
  /-- The connection to be pinged leaves the slot only into the worker's hand. -/
  ping : r.bgProcessing = true → r.requiresPing = true → r.conn = none → r.inProgress = true ∨ r.waiting = false
  /-- A connection in the slot is handed over, awaits its ping or its replacement, or has just been put there. -/
  slot : r.conn.isSome = true →
    r.completed = true ∨ (r.bgProcessing = true ∧ r.requiresPing = true) ∨ r.isReplacing = true ∨ wk.posts r.id = true
  owned : wk.request = some r.id → r.Owned ∧ r.completed = false ∧ wk.Stage r

theorem Worker.request_of_posts {wk : Worker C} {rid : Nat} (h : wk.posts rid = true) : wk.request = some rid := by
  cases wk <;> simp_all [Worker.posts, Worker.request]

theorem Worker.posts_eq_false {wk : Worker C} {rid : Nat} (h : wk.request ≠ some rid) : wk.posts rid = false :=
  Bool.eq_false_iff.2 fun hp => h (Worker.request_of_posts hp)

theorem Worker.request_ne {wk : Worker C} {rid i : Nat} (h : wk.request = some rid ∨ wk.request = none)
    (hne : i ≠ rid) :
    wk.request ≠ some i := by
  rcases h with h | h <;> simp [h, hne.symm]

theorem Worker.Stage.error_eq_none {wk : Worker C} {r : Request C} (h : wk.Stage r) :
    r.error = none ∨ ∃ rid, wk = .postProcess rid := by
  cases wk with
  | pinging | pinged => exact Or.inl h.2.2
  | creating | createdFor => exact Or.inl h.2.2.1
  | postProcess rid => exact Or.inr ⟨rid, rfl⟩
  | _ => exact Or.inl h

namespace RequestInv

variable {isOpen : Bool} {creation : Option String} {wk : Worker C} {r : Request C} {conn : PooledConn C}

section

variable (h : RequestInv isOpen creation wk r)

include h

/-- The worker does not own a request that is not queued. -/
theorem not_owned (hb : r.bgProcessing = false) : wk.request ≠ some r.id := by
  intro hw
  have := (h.owned hw).1.1
  rw [hb] at this
  cases this

theorem not_owned_of_completed (hc : r.completed = true) :
    wk.request ≠ some r.id := fun hw => absurd (hc.symm.trans (h.owned hw).2.1) nofun

/-- The worker does not own a request that waits and is not in progress. -/
theorem not_owned_of_waiting (hp : r.inProgress = false) (hw : r.waiting = true) :
    wk.request ≠ some r.id := by
  intro hreq
  rcases (h.owned hreq).1.2 with h | h
  · rw [hp] at h; cases h
  · rw [hw] at h; cases h

theorem attach (he : r.error = none) (hb : r.bgProcessing = false) (ping : Bool) :
    RequestInv isOpen creation wk (r.attach ping conn) := by
  have hown := h.not_owned hb
  obtain ⟨hm, -, hc, ha, hi, -, -, -⟩ := h
  cases ping with
  | true => exact ⟨hm, by simp [Request.attach, he], by simp [Request.attach], by simp [Request.attach], hi,
      by simp [Request.attach], by simp [Request.attach], fun hw => absurd hw hown⟩
  | false => exact ⟨hm, by simp [Request.attach, he], fun _ => hb, ha, hi, by simp [Request.attach],
      by simp [Request.attach], fun hw => absurd hw hown⟩

theorem enlist (he : r.error = none) (hc : r.completed = false)
    (hb : r.bgProcessing = false) (replacing extra : Bool) :
    RequestInv isOpen creation wk (r.enlist replacing extra) := by
  have hown := h.not_owned hb
  have hposts : wk.posts r.id = false := Worker.posts_eq_false hown
  obtain ⟨hm, -, -, ha, hi, -, hs, -⟩ := h
  refine ⟨hm, by simp [Request.enlist, he], by simp [Request.enlist], by simp [Request.enlist], hi,
    by simp [Request.enlist], fun hconn => ?_, fun hw => absurd hw hown⟩
  have := hs hconn
  simp only [hc, hb, hposts, Bool.false_eq_true, false_and, false_or, or_false] at this
  simp [Request.enlist, this]

theorem complete (hp : r.inProgress = false) (hw : r.waiting = true)
    (he : r.error = none) : RequestInv isOpen creation wk (r.complete conn) := by
  have hown := h.not_owned_of_waiting hp hw
  obtain ⟨hm, -, -, -, hi, -, -, -⟩ := h
  exact ⟨hm, by simp [Request.complete, he], fun _ => rfl, by simp [Request.complete, hw], hi,
    by simp [Request.complete], by simp [Request.complete], fun hw => absurd hw hown⟩

theorem takeCreated (hp : r.inProgress = false) (hw : r.waiting = true)
    (he : r.error = none) : RequestInv isOpen creation wk (r.takeCreated conn) := by
  unfold Request.takeCreated
  split
  · exact h.complete hp hw he
  · have hown := h.not_owned_of_waiting hp hw
    obtain ⟨hm, -, hc, ha, hi, -, -, -⟩ := h
    exact ⟨hm, by simp [he], hc, ha, hi, by simp, by simp, fun hw => absurd hw hown⟩

theorem abandon (hb : r.bgProcessing = true) :
    RequestInv isOpen creation wk { r with waiting := false } := by
  obtain ⟨hm, he, hc, -, hi, hping, hs, hown⟩ := h
  refine ⟨hm, he, hc, fun _ => hb, hi, fun _ _ _ => Or.inr rfl, hs, fun hw => ?_⟩
  obtain ⟨ho, hc, hst⟩ := hown hw
  refine ⟨⟨hb, Or.inr rfl⟩, hc, ?_⟩
  cases wk <;> exact hst

theorem clearError (he : r.error.isSome = true) :
    RequestInv isOpen creation wk { r with error := none } := by
  obtain ⟨hm, hne, hc, ha, hi, hping, hs, hown⟩ := h
  refine ⟨hm, by simp, hc, ha, hi, hping, hs, fun hw => ?_⟩
  obtain ⟨ho, hc, hst⟩ := hown hw
  refine ⟨ho, hc, ?_⟩
  -- the worker only leaves an error behind right before post-processing
  rcases hst.error_eq_none with he' | ⟨rid, rfl⟩
  · rw [he'] at he; cases he
  · trivial

theorem growthError (ha : awaitsGrowth r = true) (hreq : wk.request = none)
    (message : String) : RequestInv isOpen creation wk { r with bgProcessing := false, error := some message } := by
  simp only [awaitsGrowth, Bool.and_eq_true, Bool.not_eq_true', Option.isNone_iff_eq_none] at ha
  obtain ⟨⟨⟨⟨⟨⟨hb, hw⟩, -⟩, -⟩, -⟩, -⟩, hconn⟩ := ha
  have hnc : r.completed = false := Bool.eq_false_iff.2 fun hc => by
    have := h.completed hc
    rw [hb] at this
    cases this
  refine ⟨h.matching, fun _ => ⟨hconn, hnc, Or.inl rfl⟩, fun _ => rfl, fun hw' => ?_, h.inProgress, by simp,
    by simp [hconn], ?_⟩
  · rw [hw] at hw'; cases hw'
  · intro hr; rw [hreq] at hr; cases hr

theorem relocate {wk' : Worker C} (hposts : wk.posts r.id = false)
    (hi : isOpen = true → r.inProgress = true → wk'.request = some r.id)
    (hown : wk'.request = some r.id → r.Owned ∧ r.completed = false ∧ wk'.Stage r) :
    RequestInv isOpen creation wk' r := by
  obtain ⟨hm, he, hc, ha, -, hping, hs, -⟩ := h
  refine ⟨hm, fun hsome => ?_, hc, ha, hi, hping, fun hconn => ?_, hown⟩
  · obtain ⟨hconn, hcomp, hb⟩ := he hsome
    exact ⟨hconn, hcomp, Or.inl (hb.resolve_right (by rw [hposts]; nofun))⟩
  · rcases hs hconn with h | h | h | h
    · exact Or.inl h
    · exact Or.inr (Or.inl h)
    · exact Or.inr (Or.inr (Or.inl h))
    · rw [hposts] at h; cases h

/-- A request that is not the worker's does not depend on where the worker stands. -/
theorem of_other {wk' : Worker C} (hreq : wk.request ≠ some r.id)
    (hreq' : wk'.request ≠ some r.id) : RequestInv isOpen creation wk' r :=
  h.relocate (Worker.posts_eq_false hreq)
    (fun ho hp => absurd (h.inProgress ho hp) hreq) fun hw => absurd hw hreq'

end

end RequestInv

/-- Every request of the pool is in one of the stages. -/
def RequestsInv (s : PoolState C) (wk : Worker C) : Prop :=
  ∀ r ∈ s.requests, RequestInv s.isOpen s.config.creationCclass wk r

namespace RequestsInv

variable {env : Env C} {s t u : PoolState C} {wk : Worker C} {rid : Nat} {r : Request C} {conn : PooledConn C}

section

variable (h : RequestsInv s wk)

include h

/-- The slot of the worker's request is empty while the worker has something in hand for it. -/
theorem empty (hreq : wk.request = some rid) (he : wk.emptied = true) :
    ∀ r, s.request? rid = some r → r.conn = none := by
  intro r hr
  have hst := ((h r (List.mem_of_find?_eq_some hr)).owned (by rw [request?_id hr]; exact hreq)).2.2
  cases wk with
  | pinging | pinged | creating | createdFor => exact hst.2.1
  | _ => cases he

theorem of_requests_eq (hreq : t.requests = s.requests) (hopen : t.isOpen = s.isOpen)
    (hconf : t.config.creationCclass = s.config.creationCclass) : RequestsInv t wk := by
  unfold RequestsInv
  rw [hreq, hconf, hopen]
  exact h

theorem modifyFirst {p : Request C → Bool}
    (hf : ∀ r, s.requests.find? p = some r → RequestInv s.isOpen s.config.creationCclass wk r →
      RequestInv s.isOpen s.config.creationCclass wk (f r)) :
    RequestsInv { s with requests := Lib.modifyFirst p f s.requests } wk := by
  intro r hr
  rcases mem_modifyFirst hr with hr | ⟨r', hr', rfl⟩
  · exact h r hr
  · exact hf r' hr' (h r' (List.mem_of_find?_eq_some hr'))

theorem modifyRequest (hr : s.request? rid = some r)
    (hf : RequestInv s.isOpen s.config.creationCclass wk r → RequestInv s.isOpen s.config.creationCclass wk (f r)) :
    RequestsInv (s.modifyRequest rid f) wk :=
  h.modifyFirst fun r' hr' hinv => by
    cases hr.symm.trans hr'
    exact hf hinv

theorem removeRequest (rid : Nat) : RequestsInv (s.removeRequest rid) wk :=
  fun r hr => h r (List.mem_of_mem_eraseP hr)

theorem dropConn (conn : PooledConn C) : RequestsInv (dropConn s conn) wk :=
  h.of_requests_eq (dropConn_requests s conn) (moves_dropConn s conn).isOpen (by rw [dropConn_config])

theorem reject (slot : Option (PooledConn C)) : RequestsInv (reject s slot) wk := by
  refine h.of_requests_eq (reject_requests s slot) ?_ ?_
  all_goals
    unfold Pool.reject
    repeat' split
    all_goals rfl

theorem leaves (hl : Leaves s conn u) : RequestsInv u wk :=
  h.of_requests_eq hl.requests hl.isOpen (by rw [hl.config])

theorem returnEnds (hend : ReturnEnds env s conn t) : RequestsInv t wk := by
  cases hend with
  | dropped => exact h.dropConn _
  | given _ hr =>
    refine h.modifyFirst fun r' hr' hinv => ?_
    have hacc := (acceptsReturned_iff.1 (List.find?_some hr')).1
    exact hinv.complete hacc.inProgress hacc.waiting hacc.error
  | freed => exact h

theorem enqueueRequest (hkey : Keyed s wk) (opts : AcquireOptions) :
    RequestsInv (enqueueRequest s opts).2 wk := by
  unfold Pool.enqueueRequest
  split
  · exact h
  · intro r hr
    rcases List.mem_append.1 hr with hr | hr
    · exact h r hr
    · rw [List.mem_singleton.1 hr]
      refine ⟨rfl, by simp, by simp, by simp, by simp, by simp, by simp, fun hw => ?_⟩
      exact absurd (hkey.workerLt _ hw) (Nat.lt_irrefl _)

theorem configure (setting : Setting) : RequestsInv (setting.apply s) wk := by
  cases setting with
  | getmode value => rw [Setting.apply]; split <;> exact h
  | _ => exact h

theorem shutdown (hopen : s.isOpen = true) :
    RequestsInv (requestWorkerShutdownLocked s) wk := by
  intro r' hr'
  simp only [requestWorkerShutdownLocked, List.mem_map, List.mem_filter] at hr'
  obtain ⟨r, ⟨hr, hp⟩, rfl⟩ := hr'
  -- a request in progress is the worker's
  have hinv := h r hr
  obtain ⟨howned, hcomp, hst⟩ := hinv.owned (hinv.inProgress hopen hp)
  refine ⟨hinv.matching, fun hsome => ⟨rfl, hcomp, (hinv.error hsome).2.2⟩, hinv.completed, fun _ => howned.1,
    (Bool.noConfusion ·),
    fun _ _ _ => Or.inr rfl, (Bool.noConfusion ·), fun _ => ⟨⟨howned.1, Or.inr rfl⟩, hcomp, ?_⟩⟩
  cases wk with
  | pinging | pinged | creating | createdFor => exact ⟨hst.1, rfl, hst.2.2⟩
  | _ => exact hst

end

/-! ### The worker's steps -/

variable {wk' : Worker C} {current : Option Nat}

theorem idle (h : RequestsInv s wk) (hreq : wk.request = none) (hreq' : wk'.request = none) : RequestsInv s wk' :=
  fun r hr => (h r hr).of_other (by rw [hreq]; nofun) (by rw [hreq']; nofun)

theorem work (h : RequestsInv s wk) (hk : s.keys.Nodup) (hreq : wk.request = some rid ∨ wk.request = none)
    (hreq' : wk'.request = some rid ∨ wk'.request = none) (hid : ∀ r, (f r).id = r.id)
    (hself : ∀ r, s.request? rid = some r → r.id = rid → RequestInv s.isOpen s.config.creationCclass wk r →
      RequestInv s.isOpen s.config.creationCclass wk' (f r)) :
    RequestsInv (s.modifyRequest rid f) wk' := by
  intro r hr
  rcases mem_modifyRequest hk hr hid with ⟨hr, hne⟩ | ⟨r₀, hr₀, rfl⟩
  · exact (h r hr).of_other (Worker.request_ne hreq hne) (Worker.request_ne hreq' hne)
  · exact hself r₀ hr₀ (request?_id hr₀) (h r₀ (List.mem_of_find?_eq_some hr₀))

theorem advance (h : RequestsInv s wk) (hreq' : wk'.request = wk.request) (hposts : ∀ rid, wk.posts rid = false)
    (hst : ∀ r, wk.Stage r → wk'.Stage r) : RequestsInv s wk' := by
  intro r hr
  refine (h r hr).relocate (hposts r.id) (fun ho hp => hreq'.trans ((h r hr).inProgress ho hp)) fun hw => ?_
  obtain ⟨ho, hc, hs⟩ := (h r hr).owned (hreq'.symm.trans hw)
  exact ⟨ho, hc, hst r hs⟩

/-- The worker of a closed pool drops its request. -/
theorem leave (h : RequestsInv s (.top current)) (ho : s.isOpen = false) (hreq' : wk'.request = none) :
    RequestsInv s wk' := by
  intro r hr
  refine (h r hr).relocate rfl (fun ho' => ?_) fun hw => ?_
  · rw [ho] at ho'; cases ho'
  · rw [hreq'] at hw; cases hw

theorem pick (h : RequestsInv s (.top none)) (hk : s.keys.Nodup) (hpick : Picks s r) :
    RequestsInv (s.modifyRequest r.id fun r => { r with inProgress := r.waiting }) (.top (some r.id)) := by
  refine h.work hk (Or.inr rfl) (Or.inl rfl) (fun _ => rfl) fun r₀ hr₀ _ hinv => ?_
  cases ((request?_eq_some_iff hk).2 ⟨List.mem_of_find?_eq_some hpick.1, rfl⟩).symm.trans hr₀
  obtain ⟨hm, he, hc, ha, -, hping, hs, -⟩ := hinv
  have hseen := List.find?_some hpick.1
  simp only [transparentToWorker, Bool.not_or, Bool.and_eq_true, Bool.not_eq_true', Bool.not_not,
    Option.isSome_eq_false_iff, Option.isNone_iff_eq_none] at hseen
  obtain ⟨⟨⟨hcomp, herr⟩, -⟩, hbg⟩ := hseen
  have hmarked : r.waiting = true ∨ r.waiting = false := Bool.eq_false_or_eq_true _
  exact ⟨hm, by simp [herr], hc, ha, fun _ _ => rfl, fun _ _ _ => hmarked, hs, fun _ => ⟨⟨hbg, hmarked⟩, hcomp, herr⟩⟩

theorem finish (h : RequestsInv s wk) (hk : s.keys.Nodup) (hreq : wk.request = some rid) :
    RequestsInv s (.postProcess rid) := by
  rw [← modifyRequest_self s rid]
  refine h.work hk (Or.inl hreq) (Or.inl rfl) (fun _ => rfl) fun r _ hid hinv => ?_
  subst hid
  obtain ⟨hm, he, hc, ha, hi, hping, hs, hown⟩ := hinv
  obtain ⟨ho, hcomp, -⟩ := hown hreq
  have hposts : (Worker.postProcess r.id : Worker C).posts r.id = true := by simp [Worker.posts]
  exact ⟨hm, fun hsome => ⟨(he hsome).1, hcomp, Or.inr hposts⟩, hc, ha, fun _ _ => rfl, hping,
    fun _ => Or.inr (Or.inr (Or.inr hposts)), fun _ => ⟨ho, hcomp, trivial⟩⟩

theorem empties (h : RequestsInv s (.processing rid)) (hk : s.keys.Nodup) (hreq' : wk'.request = some rid)
    (hst : ∀ r, s.request? rid = some r → r.error = none → wk'.Stage r.emptied) :
    RequestsInv (s.modifyRequest rid Request.emptied) wk' := by
  refine h.work hk (Or.inl rfl) (Or.inl hreq') (fun _ => rfl) fun r hr hid hinv => ?_
  subst hid
  obtain ⟨hm, he, hc, ha, hi, hping, hs, hown⟩ := hinv
  obtain ⟨howned, hcomp, herr⟩ := hown rfl
  have herr : r.error = none := herr
  exact ⟨hm, by simp [Request.emptied, herr], hc, ha, fun _ _ => hreq', fun _ _ _ => howned.2, nofun,
    fun _ => ⟨howned, hcomp, hst r hr herr⟩⟩

theorem deliver (h : RequestsInv s wk) (hk : s.keys.Nodup) (hreq : wk.request = some rid)
    (hst : ∀ r, wk.Stage r → r.error = none) :
    RequestsInv (s.modifyRequest rid fun r => { r with conn := some conn }) (.postProcess rid) := by
  refine h.work hk (Or.inl hreq) (Or.inl rfl) (fun _ => rfl) fun r _ hid hinv => ?_
  subst hid
  obtain ⟨hm, -, hc, ha, hi, -, -, hown⟩ := hinv
  obtain ⟨howned, hcomp, hstage⟩ := hown hreq
  exact ⟨hm, by simp [hst r hstage], hc, ha, fun _ _ => rfl, by simp, by simp [Worker.posts],
    fun _ => ⟨howned, hcomp, trivial⟩⟩

theorem report {error : String} (h : RequestsInv s (.createdFor rid none (.error error))) (hk : s.keys.Nodup) :
    RequestsInv (s.modifyRequest rid fun r => { r with error := some error }) (.postProcess rid) := by
  refine h.work hk (Or.inl rfl) (Or.inl rfl) (fun _ => rfl) fun r _ hid hinv => ?_
  subst hid
  obtain ⟨hm, -, hc, ha, hi, hping, hs, hown⟩ := hinv
  obtain ⟨howned, hcomp, -, hconn, -, -⟩ := hown rfl
  exact ⟨hm, fun _ => ⟨hconn, hcomp, Or.inr (by simp [Worker.posts])⟩, hc, ha, fun _ _ => rfl, hping,
    fun _ => by simp [Worker.posts], fun _ => ⟨howned, hcomp, trivial⟩⟩

theorem other (h : RequestsInv s (.postProcess rid)) (hr : r ∈ s.requests) (hne : r.id ≠ rid) :
    RequestInv s.isOpen s.config.creationCclass (.top none) r :=
  (h r hr).of_other (fun he => hne (Option.some.inj he).symm) nofun

theorem processed (h : RequestsInv s (.postProcess rid)) (hk : s.keys.Nodup) (hr : s.request? rid = some r)
    (hw : r.waiting = true) : RequestsInv (s.modifyRequest rid Request.processed) (.top none) := by
  refine h.work hk (Or.inl rfl) (Or.inr rfl) (fun _ => rfl) fun r₀ hr₀ _ hinv => ?_
  cases hr.symm.trans hr₀
  refine ⟨hinv.matching, fun hsome => ?_, fun _ => rfl, fun hw' => absurd (hw.symm.trans hw') nofun, nofun, nofun,
    fun hconn => Or.inl ?_, nofun⟩
  · obtain ⟨hconn, hcomp, -⟩ := hinv.error hsome
    exact ⟨hconn, by simp [Request.processed, hconn, hcomp], Or.inl rfl⟩
  · have hconn : r.conn.isSome = true := hconn
    simp [Request.processed, hconn]

theorem postCreateConn {result : Except String (PooledConn C)} (h : RequestsInv s (.opened connId result)) :
    RequestsInv (postCreateConn s connId result) (.top none) := by
  have h₁ : RequestsInv (completeOpenEffect s connId) (.top none) := (h.idle rfl rfl).of_requests_eq rfl rfl rfl
  unfold Pool.postCreateConn
  generalize completeOpenEffect s connId = t at h₁ ⊢
  cases result with
  | error message =>
    dsimp only
    split
    · exact h₁.modifyFirst fun r hr hinv => hinv.growthError (List.find?_some hr) rfl message
    · exact h₁
  | ok conn =>
    dsimp only
    split
    · exact h₁
    · split
      · refine h₁.modifyFirst fun r hr hinv => ?_
        have hacc := (acceptsCreated_iff.1 (List.find?_some hr)).1
        exact hinv.takeCreated hacc.inProgress hacc.waiting hacc.error
      · exact h₁

end RequestsInv

/-! ### Every edit keeps the invariants -/

section Edit

variable {L : Nat → Prop} {w : World C} {a : Action C} {s t : PoolState C} {wk wk' : Worker C}

theorem keyed_edit (h : Keyed s wk) (he : Edit L w a s wk (t, wk')) : Keyed t wk' := by
  have hout (connId : Nat) : Keyed { s with busy := s.busy.eraseP (·.id == connId) } wk :=
    { h with }
  cases he with
  | drop hl => exact h.moves hl.polled_dropConn.toMoves
  | attach ping _ hl => exact (h.moves hl.polled.toMoves).modifyFirst (Request.attach_id ping _)
  | victim _ hl => exact ((h.moves hl.polled.toMoves).moves (moves_pushToDrop _ _)).modifyFirst fun _ => rfl
  | enlist extra _ => exact h.modifyFirst fun _ => rfl
  | schedule n => exact h.moves (moves_scheduleOpenEffects s n)
  | @finish rid _ _ _ _ _ _ =>
    have hrem := h.removeRequest rid
    exact { hrem with }
  | lose => exact h.removeRequest _
  | abandon | fail => exact h.modifyFirst fun _ => rfl
  | giveUp => exact (h.removeRequest _).moves (moves_reject _ _)
  | back _ hend =>
    cases hend with
    | dropped => exact (hout _).moves (moves_dropConn _ _)
    | given => exact (hout _).modifyFirst fun _ => rfl
    | freed => exact (hout _).moves (moves_pushFreeUsed _ _)
  | retire => exact (hout _).moves (moves_dropConn _ _)
  | enqueue opts => exact h.enqueueRequest opts
  | configure setting => exact h.configure setting
  | shutdown _ => exact h.of_sublist (keys_requestWorkerShutdownLocked s) rfl h.inFlight fun _ => id
  | @pick r hp =>
    have hmod : Keyed (s.modifyRequest r.id fun r => { r with inProgress := r.waiting }) (.top none) :=
      h.modifyFirst fun _ => rfl
    refine ⟨hmod.inFlight, hmod.keys, hmod.keysLt, fun rid hr => ?_⟩
    cases hr
    exact h.keysLt _ (List.mem_map.2 ⟨r, List.mem_of_find?_eq_some hp.1, rfl⟩)
  | start | pass | healthy | dead | created => exact h.advance rfl (Or.inl rfl)
  | skip | settle | opened | clean | closed | rest | exit | gone => exact h.advance rfl (Or.inr rfl)
  | ping | restore | deliver | report => exact h.work (fun _ => rfl) rfl (Or.inl rfl)
  | @create rid r _ _ _ =>
    have hmod : Keyed (s.modifyRequest rid Request.emptied) (.creating rid s.nextConnId r.cclass r.isExtra r.conn) :=
      h.work (fun _ => rfl) rfl (Or.inl rfl)
    exact { hmod with }
  | replace => exact (h.moves (moves_dropConn _ _)).advance rfl (Or.inl rfl)
  | strand => exact (h.moves (moves_pushToDrop _ _)).advance rfl (Or.inl rfl)
  | processed => exact h.work (fun _ => rfl) rfl (Or.inr rfl)
  | reject => exact ((h.removeRequest _).moves (moves_reject _ _)).advance rfl (Or.inr rfl)
  | effect hlast => exact h.takeOpenEffect hlast
  | grow => exact h.postCreateConn
  | close => exact { h with workerLt := fun _ hr => by cases hr }

private theorem requestsInv_edit (hkey : Keyed s wk) (h : RequestsInv s wk) (he : Edit L w a s wk (t, wk')) :
    RequestsInv t wk' := by
  cases he with
  | drop hl => exact (h.leaves hl).dropConn _
  | attach ping hr hl =>
    exact (h.leaves hl).modifyRequest ((hl.request? _).trans hr.found) (·.attach hr.error hr.bgProcessing ping)
  | @victim _ conn u _ hr hl =>
    have hpush : RequestsInv (pushToDrop u conn) wk := (h.leaves hl).of_requests_eq rfl rfl rfl
    exact hpush.modifyRequest ((hl.request? _).trans hr.found)
      (·.enlist hr.error hr.completed hr.bgProcessing true false)
  | enlist extra hr => exact h.modifyRequest hr.found (·.enlist hr.error hr.completed hr.bgProcessing false extra)
  | schedule => exact h
  | finish | lose => exact h.removeRequest _
  | abandon _ hr hb => exact h.modifyRequest hr (·.abandon hb)
  | fail _ hr he hb => exact h.modifyRequest hr fun hinv => (hinv.clearError he).abandon hb
  | giveUp => exact (h.removeRequest _).reject _
  | @back connId _ _ _ _ _ hend =>
      exact RequestsInv.returnEnds (s := { s with busy := s.busy.eraseP (·.id == connId) }) h hend
  | @retire connId _ _ => exact RequestsInv.dropConn (s := { s with busy := s.busy.eraseP (·.id == connId) }) h _
  | enqueue opts => exact h.enqueueRequest hkey opts
  | configure setting => exact h.configure setting
  | shutdown ho => exact h.shutdown ho
  | pick hp => exact h.pick hkey.keys hp
  | start | healthy | created => exact h.advance rfl (fun _ => rfl) fun _ hst => hst
  | skip hno =>
    rcases hno with rfl | ho
    · exact h.idle rfl rfl
    · exact h.leave ho rfl
  | pass | dead => exact h.finish hkey.keys rfl
  | ping hr hp hc =>
    refine h.empties hkey.keys rfl fun r' hr' he => ?_
    cases hr.symm.trans hr'
    exact ⟨hp, rfl, he⟩
  | create hr hp hn =>
    refine (h.empties hkey.keys rfl fun r' hr' he => ?_).of_requests_eq rfl rfl rfl
    cases hr.symm.trans hr'
    exact ⟨hp, rfl, he, hn⟩
  | restore => exact h.deliver hkey.keys rfl fun _ hst => hst.2.2
  | replace => exact (h.dropConn _).advance rfl (fun _ => rfl) fun _ hst => hst
  | strand => exact (h.finish hkey.keys rfl).of_requests_eq rfl rfl rfl
  | deliver => exact h.deliver hkey.keys rfl fun _ hst => hst.2.2.1
  | report => exact h.report hkey.keys
  | gone hr =>
    refine fun r hr' => h.other hr' fun hid => ?_
    rw [(request?_eq_some_iff hkey.keys).2 ⟨hr', hid⟩] at hr
    cases hr
  | processed hr hw => exact h.processed hkey.keys hr hw
  | reject =>
    refine RequestsInv.reject (fun r hr => ?_) _
    obtain ⟨hr, hne⟩ := mem_removeRequest hkey.keys hr
    exact h.other hr hne
  | effect =>
    refine (h.idle rfl rfl).of_requests_eq ?_ ?_ ?_
    all_goals
      unfold takeOpenEffect
      split <;> rfl
  | settle | opened | clean | closed | rest | exit => exact h.idle rfl rfl
  | grow => exact h.postCreateConn
  | close => exact (h.idle rfl rfl).of_requests_eq rfl rfl rfl

/-- No edit changes the class the pool creates connections with, and only a shutdown closes the pool. -/
theorem Edit.frame (he : Edit L w a s wk (t, wk')) : t.config.creationCclass = s.config.creationCclass ∧
    (t.isOpen = s.isOpen ∨ t = requestWorkerShutdownLocked s ∧ wk' = wk) := by
  have hmoves : ∀ {u v : PoolState C} {g l : Multiset Nat}, Moves u v g l → v.config.creationCclass =
      u.config.creationCclass ∧ (v.isOpen = u.isOpen ∨ v = requestWorkerShutdownLocked s ∧ wk' = wk) := fun hm =>
    ⟨by rw [hm.config], Or.inl hm.isOpen⟩
  cases he with
  | drop hl => exact hmoves hl.polled_dropConn.toMoves
  | attach _ _ hl | victim _ hl => exact ⟨by rw [← hl.config]; rfl, Or.inl hl.isOpen⟩
  | giveUp _ hr | reject hr => exact hmoves (moves_remove_reject hr)
  | @retire connId conn _ hc =>
    have hd := hmoves (moves_dropConn { s with busy := s.busy.eraseP (·.id == connId) } conn)
    exact hd
  | @replace _ old => exact hmoves (moves_dropConn s old)
  | @back connId conn _ _ _ hc hend =>
    cases hend with
    | @dropped conn' =>
      have hd := hmoves (moves_dropConn { s with busy := s.busy.eraseP (·.id == connId) } conn')
      exact hd
    | given | freed => exact ⟨rfl, Or.inl rfl⟩
  | enqueue opts => unfold enqueueRequest; split <;> exact ⟨rfl, Or.inl rfl⟩
  | configure setting =>
    cases setting with
    | getmode => rw [Setting.apply]; split <;> exact ⟨rfl, Or.inl rfl⟩
    | _ => exact ⟨rfl, Or.inl rfl⟩
  | shutdown => exact ⟨rfl, Or.inr ⟨rfl, rfl⟩⟩
  | effect => unfold takeOpenEffect; split <;> exact ⟨rfl, Or.inl rfl⟩
  | @grow connId result =>
    have hp := hmoves (polled_postCreateConn s connId result).toMoves
    exact hp
  | _ => exact ⟨rfl, Or.inl rfl⟩

/-- What every edit keeps of a state whose requests are in their stages is kept by a sequence of edits. -/
theorem Edits.keep {P : PoolState C → Worker C → Prop} (hkey : Keyed s wk) (hreq : RequestsInv s wk)
    (he : Edits L w a (s, wk) (t, wk')) (h : P s wk)
    (hedit : ∀ s wk t wk', Keyed s wk → RequestsInv s wk → P s wk → Edit L w a s wk (t, wk') → P t wk') :
    (Keyed t wk' ∧ RequestsInv t wk') ∧ P t wk' :=
  he.induct (P := fun s wk => (Keyed s wk ∧ RequestsInv s wk) ∧ P s wk) ⟨⟨hkey, hreq⟩, h⟩ fun _ _ _ _ hP he =>
    ⟨⟨keyed_edit hP.1.1 he, requestsInv_edit hP.1.1 hP.1.2 he⟩, hedit _ _ _ _ hP.1.1 hP.1.2 hP.2 he⟩

end Edit

section Step

variable {w w' : World C} {a : Action C}

theorem keyed_step (h : Keyed w.state w.worker) (hs : step w a = some w') : Keyed w'.state w'.worker :=
  (edits_step hs).induct h fun _ _ _ _ => keyed_edit

/-- Every step keeps the requests in their stages. -/
theorem requestsInv_step (hkey : Keyed w.state w.worker) (h : RequestsInv w.state w.worker)
    (hs : step w a = some w') :
    RequestsInv w'.state w'.worker :=
  ((edits_step hs).keep (P := fun _ _ => True) hkey h trivial fun _ _ _ _ _ _ _ _ => trivial).1.2

end Step

theorem requestsInv_start (config : PoolConfig) : RequestsInv (World.start config : World C).state (.top none) :=
  fun r hr => by cases hr

end OracleThin.Pool
