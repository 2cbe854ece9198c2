import OracleThin.Pool.Requests

/-!
# The books of a step

A step of the pool moves connection ids between the containers, the request slots, the worker's hand, the ids reserved
for connections that do not exist yet, and the logs of what was created and closed.  `Booked` says how these change,
and `booked_step` that every step keeps such books, up to the ids it loses (`lostBy`).
-/

namespace OracleThin.Pool

open Lib

variable {C : Type} {w w' : World C}

/-- The ids in the pool's containers, in the slots of the requests and in the worker's hand. -/
def World.places (w : World C) : Multiset Nat := w.state.held + ids w.worker.hand

/-- The ids that a step loses. -/
def lostBy (w : World C) : Action C → Multiset Nat
  | .poll env requestId => overwritten env w.state requestId
  | .work _ =>
    match w.worker with
    | .pinged requestId conn => if (w.state.request? requestId).isSome then 0 else {conn.id}
    | _ => 0
  | _ => 0

/-- How the ids move between the locked state and the worker: none appears or disappears, and the reserved ones grow
at most by fresh ones. -/
structure Flows (s : PoolState C) (wk : Worker C) (s' : PoolState C) (wk' : Worker C) : Prop where
  places : s'.held + ids wk'.hand = s.held + ids wk.hand
  fresh : ∃ n, s'.nextConnId = s.nextConnId + n ∧
    (wk'.reserved : Multiset Nat) + (s'.openEffects : Multiset Nat) ≤
      (wk.reserved : Multiset Nat) + (s.openEffects : Multiset Nat) + (List.range' s.nextConnId n : Multiset Nat)

variable {l g : Multiset Nat} {s s' s'' : PoolState C} {wk wk' wk'' : Worker C}

theorem Flows.trans (h : Flows s wk s' wk') (h' : Flows s' wk' s'' wk'') : Flows s wk s'' wk'' := by
  obtain ⟨n, hn, ho⟩ := h.fresh
  obtain ⟨m, hm, ho'⟩ := h'.fresh
  refine ⟨h'.places.trans h.places, n + m, by omega, ho'.trans ?_⟩
  rw [← List.range'_append_1 (s := s.nextConnId) (m := n) (n := m), ← Multiset.coe_add, ← add_assoc, ← hn]
  exact add_le_add_left ho _

/-- What leaves the locked state is taken by the worker, and what comes in is given by it. -/
theorem Moves.flows (h : Moves s s' g l) (hhand : ids wk'.hand + g = ids wk.hand + l)
    (hres : (wk'.reserved : Multiset Nat) ≤ (wk.reserved : Multiset Nat)) : Flows s wk s' wk' := by
  obtain ⟨n, hn, ho⟩ := h.fresh
  refine ⟨add_right_cancel (b := l + g) ?_, n, hn, ?_⟩
  · calc s'.held + ids wk'.hand + (l + g) = (s'.held + l) + (ids wk'.hand + g) := by abel
      _ = s.held + ids wk.hand + (l + g) := by rw [h.held, hhand]; abel
  · rw [ho, ← Multiset.coe_add, ← add_assoc]
    exact add_le_add_left (add_le_add_left hres _) _

/-- The books of one step: the connections `new` are created, those in `shut` are closed, and `lost` disappears. -/
structure Booked (w w' : World C) (lost : Multiset Nat) (new shut : List Nat) : Prop where
  created : w'.created = w.created ++ new
  closed : w'.closed = w.closed ++ shut
  places : w'.places + (shut : Multiset Nat) + lost = w.places + (new : Multiset Nat)
  fresh : ∃ n, w'.state.nextConnId = w.state.nextConnId + n ∧
    (new : Multiset Nat) + (w'.worker.reserved : Multiset Nat) + (w'.state.openEffects : Multiset Nat) ≤
      (w.worker.reserved : Multiset Nat) + (w.state.openEffects : Multiset Nat) +
        (List.range' w.state.nextConnId n : Multiset Nat)

theorem Flows.booked (h : Flows w.state w.worker w'.state w'.worker)
    (hlog : w'.created = w.created ∧ w'.closed = w.closed) :
    Booked w w' 0 [] [] := by
  refine ⟨by rw [hlog.1, List.append_nil], by rw [hlog.2, List.append_nil], ?_, ?_⟩
  · simpa [World.places] using h.places
  · simpa using h.fresh

/-! ### The books of an edit -/

/-- The worker stands neither at a call of a hook nor before a pinged connection. -/
def Worker.quiet : Worker C → Bool
  | .pinging _ _ => false
  | .pinged _ _ => false
  | .creating _ _ _ _ _ => false
  | .opening _ _ => false
  | .closing _ => false
  | _ => true

/-- A step that is not a poll, or one of the worker next to a hook. -/
def Quiet (w : World C) (a : Action C) : Prop :=
  (∀ env rid, a ≠ .poll env rid) ∧ ∀ wk, a.stage w = some wk → wk.quiet = true

/-- The edits of a quiet step move ids and lose none. -/
theorem flows_edit {L : Nat → Prop} {a : Action C} (hq : Quiet w a) (hkey : Keyed s wk) (hreq : RequestsInv s wk)
    (he : Edit L w a s wk (s', wk')) : Flows s wk s' wk' := by
  have hsame : ∀ {t : PoolState C} {g l : Multiset Nat}, Moves s t g l → g = l → Flows s wk t wk := fun hm hgl =>
    hm.flows (by rw [hgl]) (le_refl _)
  have hpoll : ∀ {r}, ¬Sought w a wk r := fun hs => by
    obtain ⟨env, ha⟩ := hs.poll
    exact hq.1 _ _ ha
  cases he with
  | drop hl => exact hsame hl.polled_dropConn.toMoves rfl
  | attach _ _ _ _ hs | victim _ _ hs | enlist _ _ hs => exact (hpoll hs).elim
  | schedule n => exact hsame (moves_scheduleOpenEffects s n) rfl
  | finish _ hr _ hconn => exact hsame (moves_finish hr hconn) rfl
  | lose _ hr _ hconn => exact hsame (moves_removeRequest hr) (slot_eq_zero.2 hconn).symm
  | abandon | fail => exact hsame (moves_modifyRequest (fun _ => rfl) fun _ => rfl) rfl
  | giveUp _ hr => exact hsame (moves_remove_reject hr) rfl
  | back hc hend => exact hsame (moves_unbusy hc hend.polled.toMoves) rfl
  | retire hc => exact hsame (moves_unbusy hc (moves_dropConn _ _)) rfl
  | enqueue opts =>
    unfold enqueueRequest
    split
    · exact hsame (Moves.refl s) rfl
    · exact ⟨by simp [PoolState.held, Request.slot], 0, rfl, by simp⟩
  | configure setting =>
    cases setting with
    | getmode =>
      unfold Setting.apply
      dsimp only
      split <;> exact ⟨rfl, 0, rfl, by simp⟩
    | _ => exact ⟨rfl, 0, rfl, by simp [Setting.apply]⟩
  | shutdown =>
    refine ⟨by rw [held_requestWorkerShutdownLocked], 0, rfl, ?_⟩
    exact (add_le_add_right (Multiset.zero_le _) _).trans (Multiset.le_add_right _ _)
  | pick | processed | report =>
    refine Moves.flows (moves_modifyRequest (fun _ => ?_) fun _ => ?_) ?_ (Multiset.zero_le _) <;> rfl
  | start | skip | pass | gone | settle | clean | rest | exit | healthy =>
    exact (Moves.refl s).flows rfl (Multiset.zero_le _)
  | ping hr _ hc =>
    refine (moves_modifyRequest_slot (f := Request.emptied) (fun _ => rfl) hr).flows ?_ (Multiset.zero_le _)
    simp [Worker.hand, Request.slot, Request.emptied, hc]
  | @create rid r hr =>
    have hm := moves_modifyRequest_slot (f := Request.emptied) (fun _ => rfl) hr
    refine ⟨?_, 1, rfl, ?_⟩
    · change (s.modifyRequest rid Request.emptied).held + _ = _
      simpa [Worker.hand, Request.emptied, Request.slot] using hm.held
    · simp [Worker.reserved, PoolState.modifyRequest, add_comm]
  | dead hw | restore hw | created _ hw | opened _ hw | closed hw => cases hq.2 _ hw
  | replace => exact (moves_dropConn _ _).flows (by simp [Worker.hand, add_comm]) (le_refl _)
  | strand => exact (moves_pushToDrop _ _).flows (by simp [Worker.hand, Except.toOption]) (Multiset.zero_le _)
  | @deliver rid conn r hr =>
    have hm := moves_modifyRequest_slot (f := fun r : Request C => { r with conn := some conn }) (fun _ => rfl) hr
    rw [slot_eq_zero.2 (hreq.empty rfl rfl r hr)] at hm
    exact hm.flows (by simp [Worker.hand, Request.slot, Except.toOption]) (Multiset.zero_le _)
  | reject hr => exact (moves_remove_reject hr).flows rfl (Multiset.zero_le _)
  | effect hlast =>
    have hflight : s.inFlightOpenEffects = [] := hkey.inFlight
    unfold takeOpenEffect at hlast ⊢
    cases hopen : s.openEffects with
    | nil => simp only [hopen, hflight, List.getLast?_nil] at hlast; cases hlast
    | cons first rest =>
      simp only [hopen, hflight, List.nil_append, List.getLast?_singleton] at hlast ⊢
      cases hlast
      exact ⟨rfl, 0, rfl, by simp [Worker.reserved, hopen]⟩
  | @grow connId result =>
    have hm := (polled_postCreateConn s connId result).toMoves
    have hf : Flows (completeOpenEffect s connId) (.opened connId result) _ (.top none) :=
      hm.flows (by simp [Worker.hand, resultIds]) (Multiset.zero_le _)
    exact ⟨hf.places, hf.fresh⟩
  | @close conn hlast =>
    have hm : Moves s { s with toDrop := s.toDrop.dropLast } 0 {conn.id} :=
      moves_containers (by rw [ids_dropLast hlast]; abel)
    exact hm.flows (by simp [Worker.hand]) (Multiset.zero_le _)

private theorem flows_step {a : Action C} (hq : Quiet w a) (hkey : Keyed w.state w.worker)
    (hreq : RequestsInv w.state w.worker) (hs : step w a = some w') : Flows w.state w.worker w'.state w'.worker :=
  ((edits_step hs).keep (P := fun s wk => Flows w.state w.worker s wk) hkey hreq
    ((Moves.refl _).flows rfl (le_refl _)) fun _ _ _ _ hkey hreq hf he => hf.trans (flows_edit hq hkey hreq he)).2

/-! ### The books of a step -/

/-- A step that loses `lost` on the way between the locked state and the worker. -/
theorem Moves.booked {lost : Multiset Nat} (h : Moves w.state w'.state g l)
    (hlog : w'.created = w.created ∧ w'.closed = w.closed)
    (hhand : ids w'.worker.hand + g + lost = ids w.worker.hand + l)
    (hres : (w'.worker.reserved : Multiset Nat) ≤ (w.worker.reserved : Multiset Nat)) : Booked w w' lost [] [] := by
  obtain ⟨n, hn, ho⟩ := h.fresh
  refine ⟨by rw [hlog.1, List.append_nil], by rw [hlog.2, List.append_nil], ?_, n, hn, ?_⟩
  · refine add_right_cancel (b := l + g) ?_
    calc w'.state.held + ids w'.worker.hand + 0 + lost + (l + g)
        = (w'.state.held + l) + (ids w'.worker.hand + g + lost) := by abel
      _ = w.state.held + ids w.worker.hand + 0 + (l + g) := by rw [h.held, hhand]; abel
  · rw [ho, ← Multiset.coe_add, Multiset.coe_nil, zero_add, ← add_assoc]
    exact add_le_add_left (add_le_add_left hres _) _

private theorem resultIds_wrapCreated (answers : Answers C) (connId : Nat) (cclass : Option String) (isExtra : Bool) :
    (((wrapCreated answers connId cclass isExtra).toOption.toList.map (·.id) : List Nat) : Multiset Nat) =
      resultIds (wrapCreated answers connId cclass isExtra) := rfl

/-- The create hook returns: the reserved id becomes the id of a connection in the hand, or is given up. -/
theorem created_le (answers : Answers C) (connId : Nat) (cclass : Option String) (isExtra : Bool) :
    resultIds (wrapCreated answers connId cclass isExtra) ≤ {connId} := by
  unfold wrapCreated resultIds
  cases answers.create <;> simp [Except.map, Except.toOption]

private theorem booked_created (answers : Answers C) {connId : Nat} {cclass : Option String} {isExtra : Bool}
    {wk wk' : Worker C} (hw : w.worker = wk) (hres : wk.reserved = [connId]) (hres' : wk'.reserved = [])
    (hhand : ids wk'.hand = ids wk.hand + resultIds (wrapCreated answers connId cclass isExtra)) :
    Booked w { w with
      worker := wk'
      created := w.created ++ (wrapCreated answers connId cclass isExtra).toOption.toList.map (·.id) } 0
      ((wrapCreated answers connId cclass isExtra).toOption.toList.map (·.id)) [] := by
  refine ⟨rfl, by simp, ?_, 0, rfl, ?_⟩
  · simp only [World.places, hhand, hw, Multiset.coe_nil, add_zero, resultIds_wrapCreated]
    abel
  · have hle := created_le answers connId cclass isExtra
    rw [hw]
    simp only [hres, hres', Multiset.coe_nil, add_zero, resultIds_wrapCreated, List.range'_zero]
    exact add_le_add_left hle _

private theorem booked_closed {conn : PooledConn C} {wk : Worker C} (hhand : w.worker.hand = [conn])
    (hhand' : wk.hand = []) (hres' : wk.reserved = []) :
    Booked w { w with worker := wk, closed := w.closed ++ [conn.id] } 0 [] [conn.id] := by
  refine ⟨by simp, rfl, ?_, 0, rfl, ?_⟩
  · simp [World.places, hhand, hhand']
  · rw [hres', Multiset.coe_nil, zero_add, zero_add, List.range'_zero, Multiset.coe_nil, add_zero]
    exact Multiset.le_add_left _ _

private theorem logs_step {a : Action C} (hs : step w a = some w')
    (hq : ∀ wk, a.stage w = some wk → wk.quiet = true) :
    w'.created = w.created ∧ w'.closed = w.closed := by
  cases stepEnds_step hs with
  | worked hs =>
    rw [workStep] at hs
    have hq := hq _ rfl
    cases hw : w.worker <;> rw [hw] at hs hq <;> cases hq <;> cases hs
    all_goals first | exact ⟨rfl, rfl⟩ | (first | unfold workEffects | unfold workDrop); split <;> exact ⟨rfl, rfl⟩
  | _ => exact ⟨rfl, rfl⟩

/-- The books of every step of every party. -/
theorem booked_step {action : Action C} (h : Keyed w.state w.worker) (hreq : RequestsInv w.state w.worker)
    (hs : step w action = some w') : ∃ new shut, Booked w w' (lostBy w action) new shut := by
  have hquiet : Quiet w action → Booked w w' 0 [] [] := fun hq => (flows_step hq h hreq hs).booked (logs_step hs hq.2)
  cases action with
  | poll env rid =>
    have hlog := logs_step hs (by simp [Action.stage])
    have hm := (pollRequestCompletion_spec env w.state rid).1
    simp only [step] at hs
    split at hs <;> cases hs
    have hpoll : (pollStep env rid w).state = (pollRequestCompletion env w.state rid).2 ∧
        (pollStep env rid w).worker = w.worker := by
      unfold pollStep
      split <;> rename_i hout <;> rw [hout] <;> exact ⟨rfl, rfl⟩
    rw [← hpoll.1] at hm
    exact ⟨_, _, hm.booked hlog (by rw [hpoll.2, add_zero]; rfl) (by rw [hpoll.2])⟩
  | work answers =>
    have hstep := hs
    rw [step, workStep] at hstep
    unfold lostBy
    cases hw : w.worker with
    | pinging rid conn =>
      rw [hw] at hstep
      dsimp only at hstep
      split at hstep
      · cases hstep
        refine ⟨_, _, Moves.booked (g := 0) (l := 0) (Moves.refl w.state) ⟨?_, ?_⟩ ?_ (Multiset.zero_le _)⟩
        · rfl
        · rfl
        · rw [hw]; rfl
      · cases hstep; exact ⟨_, _, booked_closed (by rw [hw]; rfl) rfl rfl⟩
    | pinged rid conn =>
      rw [hw] at hstep hreq
      cases hstep
      have hm := (polled_restorePinged (hreq.empty rfl rfl) conn).toMoves
      refine ⟨_, _, Moves.booked hm ⟨rfl, rfl⟩ ?_ (Multiset.zero_le _)⟩
      rw [hw]
      cases hr : w.state.request? rid <;> simp [Worker.hand, hr]
    | creating | opening =>
      rw [hw] at hstep
      cases hstep
      exact ⟨_, _, booked_created answers hw rfl rfl (by simp [Worker.hand, resultIds])⟩
    | closing conn => rw [hw] at hstep; cases hstep; exact ⟨_, _, booked_closed (by rw [hw]; rfl) rfl rfl⟩
    | _ =>
      refine ⟨_, _, hquiet ⟨by simp, fun wk hwk => ?_⟩⟩
      cases hwk
      rw [hw]
      rfl
  | _ => exact ⟨_, _, hquiet ⟨by simp, by simp [Action.stage]⟩⟩

end OracleThin.Pool
