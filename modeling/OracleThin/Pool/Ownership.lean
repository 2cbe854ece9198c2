import OracleThin.Pool.Books

/-!
# Exclusive ownership

In every reachable state each connection id is in one place: a container, the slot of a request, the worker's hand, or
reserved for a connection that does not exist yet.  `Tickets` states this for the locked state together with the ids
that are outside it, `CoreInv` adds what the worker relies on while it does not hold the lock, and `GuardInv` that a
guard's connection is busy as long as the pool is open.  The invariant is kept by every step (`inv_step`), hence by
every run.
-/

namespace OracleThin.Pool

open Lib

variable {C : Type}

/-! ### Tickets -/

/-- The ids of the locked state, the ids `outside` it and the reserved ids are pairwise distinct and below the next
one to be given out. -/
def Tickets (s : PoolState C) (outside : Multiset Nat) : Prop :=
  (s.held + outside + (s.openEffects : Multiset Nat)).Nodup ∧
    ∀ i ∈ s.held + outside + (s.openEffects : Multiset Nat), i < s.nextConnId

theorem nodup_add_range' {m : Multiset Nat} {a : Nat} (hm : m.Nodup) (hlt : ∀ i ∈ m, i < a) (n : Nat) :
    (m + (List.range' a n : Multiset Nat)).Nodup ∧ ∀ i ∈ m + (List.range' a n : Multiset Nat), i < a + n := by
  have hr : ∀ i ∈ (List.range' a n : Multiset Nat), a ≤ i ∧ i < a + n := by
    intro i hi
    simpa using hi
  refine ⟨Multiset.nodup_add.2 ⟨hm, List.nodup_range', ?_⟩, ?_⟩
  · rw [Multiset.disjoint_left]
    intro i hi hi'
    have := hlt i hi
    have := hr i hi'
    omega
  · intro i hi
    rcases Multiset.mem_add.1 hi with hi | hi
    · have := hlt i hi; omega
    · exact (hr i hi).2

theorem Booked.tickets {w w' : World C} {lost : Multiset Nat} {new shut : List Nat} (h : Booked w w' lost new shut)
    (ht : Tickets w.state (ids w.worker.hand + (w.worker.reserved : Multiset Nat))) :
    Tickets w'.state (ids w'.worker.hand + (w'.worker.reserved : Multiset Nat)) := by
  obtain ⟨n, hn, hle⟩ := h.fresh
  have hplaces : w'.places ≤ w.places + (new : Multiset Nat) := by
    rw [← h.places, add_assoc]
    exact Multiset.le_add_right _ _
  have hmono : w'.state.held + (ids w'.worker.hand + (w'.worker.reserved : Multiset Nat)) +
      (w'.state.openEffects : Multiset Nat) ≤
      w.state.held + (ids w.worker.hand + (w.worker.reserved : Multiset Nat)) + (w.state.openEffects : Multiset Nat) +
        (List.range' w.state.nextConnId n : Multiset Nat) := by
    calc _ = w'.places + ((w'.worker.reserved : Multiset Nat) + (w'.state.openEffects : Multiset Nat)) := by
          unfold World.places; abel
      _ ≤ w.places + ((new : Multiset Nat) + (w'.worker.reserved : Multiset Nat) +
          (w'.state.openEffects : Multiset Nat)) := by
          rw [add_assoc (new : Multiset Nat), ← add_assoc w.places]
          exact add_le_add_left hplaces _
      _ ≤ w.places + ((w.worker.reserved : Multiset Nat) + (w.state.openEffects : Multiset Nat) +
          (List.range' w.state.nextConnId n : Multiset Nat)) := add_le_add_right hle _
      _ = _ := by unfold World.places; abel
  obtain ⟨hnd, hlt⟩ := nodup_add_range' ht.1 ht.2 n
  refine ⟨Multiset.nodup_of_le hmono hnd, fun i hi => ?_⟩
  rw [hn]
  exact hlt i (Multiset.mem_of_le hmono hi)

theorem ids_busy_le_held (s : PoolState C) : ids s.busy ≤ s.held := by
  unfold PoolState.held
  rw [add_assoc, add_assoc (ids s.freeNew + ids s.freeUsed), add_left_comm]
  exact Multiset.le_add_right _ _

theorem Tickets.nodup_held {s : PoolState C} {x : Multiset Nat} (h : Tickets s x) : s.held.Nodup := by
  refine Multiset.nodup_of_le ?_ h.1
  rw [add_assoc]
  exact Multiset.le_add_right _ _

/-! ### What the worker relies on -/

/-- The invariant that links the locked state and the worker. -/
structure CoreInv (s : PoolState C) (wk : Worker C) : Prop where
  tickets : Tickets s (ids wk.hand + (wk.reserved : Multiset Nat))
  inFlight : s.inFlightOpenEffects = wk.inFlight
  keys : s.keys.Nodup
  keysLt : ∀ k ∈ s.keys, k < s.nextRequestId
  workerLt : ∀ rid, wk.request = some rid → rid < s.nextRequestId
  owned : ∀ r ∈ s.requests, wk.request = some r.id → r.Owned ∧ (wk.emptied = true → r.conn = none)

theorem CoreInv.keyed {s : PoolState C} {wk : Worker C} (h : CoreInv s wk) : Keyed s wk :=
  { h with }

/-- Every step of every party keeps the core invariant. -/
theorem coreInv_step {w w' : World C} {action : Action C} (h : CoreInv w.state w.worker)
    (hreq : RequestsInv w.state w.worker) (hs : step w action = some w') : CoreInv w'.state w'.worker := by
  obtain ⟨hflight, hkeys, hlt, hwlt⟩ := keyed_step h.keyed hs
  obtain ⟨new, shut, hb⟩ := booked_step h.keyed hreq hs
  have hreq' := requestsInv_step h.keyed hreq hs
  refine ⟨hb.tickets h.tickets, hflight, hkeys, hlt, hwlt, fun r hr hw => ⟨((hreq' r hr).owned hw).1, fun he => ?_⟩⟩
  exact hreq'.empty hw he r ((request?_eq_some_iff hkeys).2 ⟨hr, rfl⟩)

/-! ### Guards -/

/-- Every connection that a guard holds, or that a dropped guard has sent back, is busy as long as the pool is open,
and no two guards hold the same one. -/
structure GuardInv (w : World C) : Prop where
  nodup : (w.guards ++ w.dropReturns).Nodup
  busy : w.state.isOpen = true → ∀ i ∈ w.guards ++ w.dropReturns, i ∈ ids w.state.busy

section Guards

variable {w w' : World C} {a : Action C}

/-- Connections leave the busy list of an open pool only when their users give them back. -/
theorem busy_edit {L : Nat → Prop} {s t : PoolState C} {wk wk' : Worker C} (he : Edit L w a s wk (t, wk'))
    (ho : t.isOpen = true) : ∀ i ∈ ids s.busy, i ∉ recalls w a → i ∈ ids t.busy := by
  have hsame : ∀ {u : PoolState C}, u.busy = s.busy → ∀ i ∈ ids s.busy, i ∉ recalls w a → i ∈ ids u.busy :=
    fun hb i hi _ => by rw [hb]; exact hi
  have hrecall : ∀ {u : PoolState C} {connId : Nat}, connId ∈ recalls w a →
      u.busy = s.busy.eraseP (·.id == connId) → ∀ i ∈ ids s.busy, i ∉ recalls w a → i ∈ ids u.busy := by
    intro u connId hconn hb i hi hout
    obtain ⟨c, hc, rfl⟩ := mem_ids.1 hi
    rw [hb]
    refine mem_ids.2 ⟨c, (List.mem_eraseP_of_neg ?_).2 hc, rfl⟩
    simp only [beq_iff_eq]
    rintro rfl
    exact hout hconn
  cases he with
  | drop hl => exact hsame hl.polled_dropConn.busy
  | attach _ _ hl | victim _ hl => exact hsame hl.polled.busy
  | finish => exact fun i hi _ => by rw [ids_append]; exact Multiset.mem_add.2 (Or.inl hi)
  | giveUp | reject => exact hsame (reject_busy _ _)
  | back _ hend hconn => exact hrecall hconn hend.polled.busy
  | retire _ ha => exact hrecall (by simp [ha, recalls]) (dropConn_busy _ _)
  | enqueue => unfold enqueueRequest; split <;> exact hsame rfl
  | configure setting =>
    cases setting with
    | getmode => rw [Setting.apply]; split <;> exact hsame rfl
    | _ => exact hsame rfl
  | shutdown => cases ho
  | replace => exact hsame (dropConn_busy _ _)
  | effect => unfold takeOpenEffect; split <;> exact hsame rfl
  | @grow connId result => exact hsame (polled_postCreateConn s connId result).busy
  | _ => exact hsame rfl

private theorem busy_step (hs : step w a = some w') (ho : w'.state.isOpen = true) :
    w.state.isOpen = true ∧ ∀ i ∈ ids w.state.busy, i ∉ recalls w a → i ∈ ids w'.state.busy := by
  refine (edits_step hs).induct (P := fun s _ => s.isOpen = true →
    w.state.isOpen = true ∧ ∀ i ∈ ids w.state.busy, i ∉ recalls w a → i ∈ ids s.busy) ?_ ?_ ho
  · exact fun ho => ⟨ho, fun _ hi _ => hi⟩
  · intro s wk t wk' hP he ho
    rcases he.frame.2 with heq | ⟨rfl, -⟩
    · obtain ⟨hopen, hb⟩ := hP (heq.symm.trans ho)
      exact ⟨hopen, fun i hi hout => busy_edit he ho i (hb i hi hout) hout⟩
    · cases ho

section

variable (h : GuardInv w) (hs : step w a = some w')

include h hs

/-- No further connection is out after the step, and none of those that it takes back. -/
theorem GuardInv.kept
    (hsub : (w'.guards ++ w'.dropReturns).Sublist (w.guards ++ w.dropReturns))
    (hout : ∀ i ∈ w'.guards ++ w'.dropReturns, i ∉ recalls w a) : GuardInv w' := by
  refine ⟨hsub.nodup h.nodup, fun ho i hi => ?_⟩
  obtain ⟨hopen, hb⟩ := busy_step hs ho
  exact hb i (h.busy hopen i (hsub.subset hi)) (hout i hi)

theorem GuardInv.still (hr : recalls w a = []) (hg : w'.guards = w.guards)
    (hq : w'.dropReturns = w.dropReturns) : GuardInv w' :=
  h.kept hs (by rw [hg, hq]) fun _ _ => by rw [hr]; exact List.not_mem_nil

theorem GuardInv.drains (hr : recalls w a = w.dropReturns)
    (hg : w'.guards = w.guards) (hq : w'.dropReturns = []) : GuardInv w' := by
  obtain ⟨-, -, hdisj⟩ := List.nodup_append.1 h.nodup
  refine h.kept hs (by rw [hg, hq, List.append_nil]; exact List.sublist_append_left _ _) fun i hi hi' => ?_
  rw [hg, hq, List.append_nil] at hi
  rw [hr] at hi'
  exact hdisj i hi i hi' rfl

theorem GuardInv.release {connId : Nat}
    (hr : recalls w a = w.dropReturns ++ [connId]) (hg : w'.guards = w.guards.erase connId)
    (hq : w'.dropReturns = []) :
    GuardInv w' := by
  obtain ⟨hn, -, hdisj⟩ := List.nodup_append.1 h.nodup
  refine h.kept hs ?_ fun i hi hi' => ?_
  · rw [hg, hq, List.append_nil]
    exact (List.erase_sublist).trans (List.sublist_append_left _ _)
  · rw [hg, hq, List.append_nil, hn.mem_erase_iff] at hi
    rw [hr, List.mem_append, List.mem_singleton] at hi'
    exact hi'.elim (fun hi' => hdisj i hi.2 i hi' rfl) hi.1

end

theorem GuardInv.queue (h : GuardInv w) (connId : Nat) (hmem : connId ∈ w.guards) :
    GuardInv { w with guards := w.guards.erase connId, dropReturns := w.dropReturns ++ [connId] } := by
  have hp : (w.guards.erase connId ++ (w.dropReturns ++ [connId])).Perm (w.guards ++ w.dropReturns) := by
    rw [← List.append_assoc]
    refine List.perm_append_comm.trans ?_
    exact ((List.perm_cons_erase hmem).append_right w.dropReturns).symm
  exact ⟨hp.nodup_iff.2 h.nodup, fun ho i hi => h.busy ho i (hp.mem_iff.1 hi)⟩

/-- A poll hands a connection out that no guard holds. -/
theorem GuardInv.poll {s' : PoolState C} {out : Option Nat} (h : GuardInv w) (hh : HandsOut w.state s' out)
    (hbusy : (ids s'.busy).Nodup) (hopen : s'.isOpen = w.state.isOpen) :
    GuardInv { w with state := s', guards := w.guards ++ out.toList } := by
  cases out with
  | none =>
    refine ⟨by simpa using h.nodup, fun ho i hi => ?_⟩
    have hb : s'.busy = w.state.busy := hh
    rw [hb]
    exact h.busy (hopen.symm.trans ho) i (by simpa using hi)
  | some id =>
    obtain ⟨ho, c, rfl, hb⟩ := hh
    have hfresh : c.id ∉ w.guards ++ w.dropReturns := by
      intro hmem
      have hin := h.busy ho c.id hmem
      rw [hb, ids_append, ids_cons, ids_nil, add_zero, Multiset.nodup_add] at hbusy
      exact (Multiset.disjoint_left.1 hbusy.2.2) hin (by simp)
    have hp : (w.guards ++ [c.id] ++ w.dropReturns).Perm (c.id :: (w.guards ++ w.dropReturns)) := by
      rw [List.append_assoc, List.singleton_append]
      exact List.perm_middle
    refine ⟨hp.nodup_iff.2 (List.nodup_cons.2 ⟨hfresh, h.nodup⟩), fun _ i hi => ?_⟩
    rw [hb, ids_append]
    rcases List.mem_cons.1 (hp.mem_iff.1 hi) with rfl | hi
    · simp
    · exact Multiset.mem_add.2 (Or.inl (h.busy ho i hi))

end Guards

/-- The invariant of the pool. -/
structure Inv (w : World C) : Prop where
  core : CoreInv w.state w.worker
  guard : GuardInv w

/-! ### Every step keeps the invariant -/

section Steps

variable {w w' : World C}

/-- Every step of every party keeps the invariant. -/
theorem inv_step {action : Action C} (h : Inv w) (hreq : RequestsInv w.state w.worker)
    (hs : step w action = some w') :
    Inv w' := by
  have hcore := coreInv_step h.core hreq hs
  refine ⟨hcore, ?_⟩
  cases stepEnds_step hs with
  | acquired | refused | drained | closed | unclosed => exact h.guard.drains hs rfl rfl rfl
  | @served env rid _ _ hp | @waiting env rid _ hp | @failed env rid _ _ hp =>
    obtain ⟨hm, hh⟩ := pollRequestCompletion_spec env w.state rid
    rw [hp] at hm hh
    have hguard := h.guard.poll hh (Multiset.nodup_of_le (ids_busy_le_held _) hcore.tickets.nodup_held) hm.isOpen
    exact ⟨by simpa [handedOut, Except.toOption] using hguard.1, by simpa [handedOut, Except.toOption] using hguard.2⟩
  | abandoned | configured | returned => exact h.guard.still hs rfl rfl rfl
  | released | dropped => exact h.guard.release hs rfl rfl rfl
  | @rearmed connId env s' _ hg hout =>
    -- the state is unchanged by a failed release
    have hsame : s' = (w.drained env).state := by
      unfold returnConnectionImpl at hout
      split at hout
      · cases hout
      · split at hout
        · exact (congrArg Prod.snd hout).symm
        · cases hout
    subst hsame
    have hd : GuardInv (w.drained env) := h.guard.drains (a := .drain env) rfl rfl rfl rfl
    exact ⟨(hd.queue connId hg).1, (hd.queue connId hg).2⟩
  | queued hg => exact h.guard.queue _ hg
  | worked hstep =>
    rw [workStep] at hstep
    cases hw : w.worker with
    | top current =>
      rw [hw] at hstep
      cases hstep
      exact h.guard.drains hs (by rw [recalls, hw]) rfl rfl
    | exited => rw [hw] at hstep; cases hstep
    | _ =>
      refine h.guard.still hs (by rw [recalls, hw]) ?_ ?_
      all_goals
        rw [hw] at hstep
        dsimp only at hstep
        first
          | cases hstep; rfl
          | cases hstep; first | unfold workEffects | unfold workDrop
            split <;> rfl
          | split at hstep <;> cases hstep <;> rfl

/-- The invariant of the pool and the stages of the requests are kept together. -/
theorem inv_requestsInv_step {action : Action C} (h : Inv w ∧ RequestsInv w.state w.worker)
    (hs : step w action = some w') : Inv w' ∧ RequestsInv w'.state w'.worker :=
  ⟨inv_step h.1 h.2 hs, requestsInv_step h.1.core.keyed h.2 hs⟩

end Steps

theorem inv_start (config : PoolConfig) : Inv (World.start config : World C) := by
  refine ⟨⟨?_, rfl, List.nodup_nil, (fun k hk => by cases hk), (fun _ hr => by cases hr), fun _ hr => by cases hr⟩,
    List.nodup_nil, fun _ i hi => by cases hi⟩
  have h := nodup_add_range' (m := 0) (a := 1) Multiset.nodup_zero (by simp) config.min
  unfold Tickets
  simpa [World.start, PoolState.start, scheduleOpenEffects, PoolState.held, Worker.hand, Worker.reserved] using h

private theorem inv_reachable {config : PoolConfig} {w : World C} (h : Reachable config w) : Inv w := by
  obtain ⟨actions, h⟩ := h
  exact (exec_induct (I := fun w => Inv w ∧ RequestsInv w.state w.worker) (fun _ _ _ hi hs =>
    inv_requestsInv_step hi hs)
    ⟨inv_start config, requestsInv_start config⟩ h).1

/-! ### Exclusive ownership -/

/-- In every reachable state each connection id occurs at most once across the containers, the request slots and the
worker's hand, and no two callers hold the same connection. -/
theorem ownership_exclusive (config : PoolConfig) (w : World C) (h : Reachable config w) :
    w.places.Nodup ∧ w.guards.Nodup := by
  have hi := inv_reachable h
  refine ⟨?_, (List.nodup_append.1 hi.guard.nodup).1⟩
  refine Multiset.nodup_of_le ?_ hi.core.tickets.1
  rw [← add_assoc, add_assoc]
  exact Multiset.le_add_right _ _

/-- A backend whose connections are always open, at the start of the clock. -/
def Env.calm : Env Unit := ⟨fun _ => true, fun _ => 0⟩

/-- The answers of that backend to the worker: creates succeed and pings are healthy. -/
def Answers.calm : Answers Unit := ⟨Env.calm, .ok (), 0, true⟩

/-- The worker creates the first connection and an acquire gets it. -/
def handOutRun : List (Action Unit) :=
  List.replicate 4 (.work .calm) ++ [.acquire .calm {}, .poll .calm 1]

theorem ownership_exclusive_handOutRun :
    ∃ w, exec step (World.start (PoolConfig.new 1 1 1)) handOutRun = some w ∧ w.guards = [1] ∧
      w.places.Nodup ∧ w.guards.Nodup :=
  ⟨_, rfl, rfl, ownership_exclusive (PoolConfig.new 1 1 1) _ ⟨handOutRun, rfl⟩⟩

end OracleThin.Pool
