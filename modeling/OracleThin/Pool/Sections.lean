import OracleThin.Pool.Rules

/-!
# Where the lock sections move the connections

One specification for each lock section: which ids it moves, and what it leaves of the busy list.
-/

namespace OracleThin.Pool

open Lib

variable {C : Type} {env : Env C} {s : PoolState C} {rid : Nat} {r : Request C} {c : PooledConn C}

private theorem polled_mark {f : Request C → Request C} (hid : ∀ r, (f r).id = r.id)
    (hconn : ∀ r, (f r).conn = r.conn) :
    Polled s (s.modifyRequest rid f) 0 0 :=
  ⟨moves_modifyRequest hid hconn, rfl⟩

/-! ### The poll -/

theorem QueueEnds.polled {out : Except PoolError Bool × PoolState C} (h : QueueEnds r s out) :
    Polled s out.2 0 0 := by
  have henlist : ∀ (t : PoolState C) (replacing extra : Bool),
      Polled t (t.modifyRequest r.id (Request.enlist replacing extra)) 0 0 :=
    fun _ _ _ => polled_mark (fun _ => rfl) fun _ => rfl
  cases h with
  | @victim u conn _ hleave =>
    have hpush : Polled u (pushToDrop u conn) {conn.id} 0 := ⟨moves_pushToDrop u conn, rfl⟩
    have h := (hleave.polled.trans hpush).trans (henlist _ true false)
    exact Polled.cancel (a := {conn.id}) (h.cast (by simp) (by simp))
  | extra => exact henlist s false true
  | refused => exact polled_mark (fun _ => rfl) fun _ => rfl
  | waits => exact henlist s false false
  | grows =>
    have hgrow : ∀ n, Polled s (scheduleOpenEffects s n) 0 0 := fun n => ⟨moves_scheduleOpenEffects s n, rfl⟩
    exact ((hgrow _).trans (henlist _ false false)).cast (zero_add _) (zero_add _)

private theorem polled_fulfill (env : Env C) (s : PoolState C) (rid : Nat) :
    Polled s (fulfill env s rid).2 0 (overwritten env s rid) := by
  unfold fulfill overwritten
  cases hopen : s.isOpen with
  | false =>
    simp only [Bool.not_false, if_true, Bool.false_and, Bool.false_eq_true, if_false]
    split <;> exact Polled.refl s
  | true =>
    cases hr : s.request? rid with
    | none => exact Polled.refl s
    | some r =>
      cases herr : r.error with
      | some e =>
        simp only [herr, Option.isNone_some]
        exact polled_mark (fun _ => rfl) fun _ => rfl
      | none =>
        cases hc : r.completed with
        | true => simp only [herr, hc]; exact Polled.refl s
        | false =>
          cases hb : r.bgProcessing with
          | true => simp only [herr, hc, hb]; exact Polled.refl s
          | false =>
            simp only [herr, hc, hb, Option.isNone_none, Bool.not_false, Bool.and_self, if_true,
              Bool.false_eq_true, if_false]
            obtain rfl := request?_id hr
            have hscan := scan_scanFree env hr hc
            have hpol := hscan.polled hr
            cases hout : scanFree env s r with
            | mk res s₁ =>
              rw [hout] at hpol hscan
              cases res with
              | some res => exact hpol
              | none =>
                cases hscan.ends with
                | exhausted hd _ =>
                  have hq := queueEnds_queueRequest (s := s₁) (by rw [hd.request?]; exact hr) hb
                  exact (hpol.trans hq.polled).cast (zero_add _) (add_zero _)

private theorem polled_abandonRequest (s : PoolState C) (rid : Nat) : Polled s (abandonRequest s rid) 0 0 := by
  have h := abandonEnds_abandonRequest s rid
  generalize abandonRequest s rid = t at h ⊢
  cases h with
  | unknown => exact Polled.refl s
  | marked => exact polled_mark (fun _ => rfl) fun _ => rfl
  | removed hr => exact ⟨moves_remove_reject hr, reject_busy _ _⟩

/-- The outcome of a lock section that may hand a connection out: its id is returned and the connection is the new
last entry of the busy list. -/
def HandsOut (s s' : PoolState C) (out : Option Nat) : Prop :=
  match out with
  | some id => s.isOpen = true ∧ ∃ c, c.id = id ∧ s'.busy = s.busy ++ [c]
  | none => s'.busy = s.busy

theorem moves_finish (hr : s.request? rid = some r) (hc : r.conn = some c) :
    Moves s { s.removeRequest rid with busy := s.busy ++ [{ c with everAcquired := true }] } 0 0 := by
  have hslot : r.slot = {c.id} := by simp [Request.slot, hc]
  have hbusy : Moves (s.removeRequest rid)
      { s.removeRequest rid with busy := s.busy ++ [{ c with everAcquired := true }] } {c.id} 0 :=
    moves_containers (by simp [PoolState.removeRequest]; abel)
  have h := (moves_removeRequest hr).trans hbusy
  rw [hslot] at h
  exact Moves.cancel (a := {c.id}) (h.cast (by simp) (by simp))

private theorem finishCompletedRequest_spec (s : PoolState C) (rid : Nat) (hopen : s.isOpen = true) :
    Moves s (finishCompletedRequest s rid).2 0 0 ∧
      HandsOut s (finishCompletedRequest s rid).2 (finishCompletedRequest s rid).1.toOption := by
  unfold finishCompletedRequest
  cases hr : s.request? rid with
  | none => exact ⟨Moves.refl s, rfl⟩
  | some r =>
    cases hc : r.conn with
    | none =>
      have hm := moves_removeRequest hr
      rw [slot_eq_zero.2 hc] at hm
      simp only [hc]
      exact ⟨hm, rfl⟩
    | some c =>
      simp only [hc]
      exact ⟨moves_finish hr hc, hopen, { c with everAcquired := true }, rfl, rfl⟩

/-- The connection id that a poll hands out. -/
def handedOut (out : Except PoolError (Option Nat)) : Option Nat := out.toOption.join

/-- A poll loses what it overwrites and nothing else, and moves the connection it hands out to the busy list. -/
theorem pollRequestCompletion_spec (env : Env C) (s : PoolState C) (rid : Nat) :
    Moves s (pollRequestCompletion env s rid).2 0 (overwritten env s rid) ∧
      HandsOut s (pollRequestCompletion env s rid).2 (handedOut (pollRequestCompletion env s rid).1) := by
  have hf := polled_fulfill env s rid
  have hopen : (fulfill env s rid).1 = .ok true → s.isOpen = true := by
    intro h
    cases ho : s.isOpen with
    | true => rfl
    | false => rw [fulfill, ho] at h; cases h
  unfold pollRequestCompletion
  generalize fulfill env s rid = out at hf hopen ⊢
  obtain ⟨res, s₁⟩ := out
  match res with
  | .ok false => exact ⟨hf.toMoves, hf.busy⟩
  | .error err =>
    have h := (hf.trans (polled_abandonRequest s₁ rid)).cast (zero_add _) (add_zero _)
    exact ⟨h.toMoves, h.busy⟩
  | .ok true =>
    have ho := hopen rfl
    obtain ⟨hm, hh⟩ := finishCompletedRequest_spec s₁ rid (hf.isOpen.trans ho)
    have hm' := (hf.toMoves.trans hm).cast (zero_add _) (add_zero _)
    dsimp only
    generalize finishCompletedRequest s₁ rid = fin at hm hh hm' ⊢
    obtain ⟨res, s₂⟩ := fin
    cases res with
    | ok id =>
      obtain ⟨-, c, hc, hb⟩ := hh
      exact ⟨hm', ho, c, hc, by rw [← hf.busy]; exact hb⟩
    | error err => exact ⟨hm', Eq.trans hh hf.busy⟩

/-! ### Returning a connection -/

private theorem polled_give {p : Request C → Bool} {f : Request C → Request C} (hid : ∀ r, (f r).id = r.id)
    (hf : ∀ r, (f r).slot = {c.id}) (hempty : ∀ r, p r = true → r.conn = none) (hr : s.requests.find? p = some r) :
    Polled s { s with requests := modifyFirst p f s.requests } {c.id} 0 := by
  have hm := moves_modifyFirst_slot hid hr
  rw [hf r, slot_eq_zero.2 (hempty r (List.find?_some hr))] at hm
  exact ⟨hm, rfl⟩

theorem ReturnEnds.polled {t : PoolState C} (h : ReturnEnds env s c t) : Polled s t {c.id} 0 := by
  cases h with
  | dropped _ hid => rw [← hid]; exact polled_dropConn s _
  | given _ hr =>
    exact polled_give (c := c) (fun _ => rfl) (fun r => by simp [Request.slot, Request.complete, PooledConn.returned])
      (fun r hr => (acceptsReturned_iff.1 hr).1.conn) hr
  | freed => exact ⟨moves_pushFreeUsed s _, rfl⟩

theorem moves_unbusy {connId : Nat} {s' : PoolState C} (hc : s.busy.find? (·.id == connId) = some c)
    (h : Moves { s with busy := s.busy.eraseP (·.id == connId) } s' {c.id} 0) : Moves s s' 0 0 := by
  have htake : Moves s { s with busy := s.busy.eraseP (·.id == connId) } 0 {c.id} :=
    moves_containers (by rw [ids_eraseP hc]; abel)
  exact Moves.cancel (a := {c.id}) ((htake.trans h).cast (by simp) (by simp))

/-! ### The worker's sections -/

/-- The ids of what the create hook returned. -/
def resultIds (result : Except String (PooledConn C)) : Multiset Nat := ids result.toOption.toList

/-- Integrating a connection created for growth, after the effect has been taken off the list of those in flight. -/
theorem polled_postCreateConn (s : PoolState C) (connId : Nat) (result : Except String (PooledConn C)) :
    Polled (completeOpenEffect s connId) (postCreateConn s connId result) (resultIds result) 0 := by
  unfold postCreateConn
  generalize completeOpenEffect s connId = t
  cases result with
  | error e =>
    dsimp only
    split
    · exact ⟨moves_modifyFirst (fun _ => rfl) fun _ _ => rfl, rfl⟩
    · exact Polled.refl t
  | ok c =>
    have hc : resultIds (.ok c : Except String (PooledConn C)) = {c.id} := by simp [resultIds, Except.toOption]
    dsimp only
    split
    · exact ⟨moves_pushToDrop t c, rfl⟩
    · split
      · rename_i hany
        obtain ⟨r, hr⟩ := Option.isSome_iff_exists.1 ((List.find?_isSome).2 (List.any_eq_true.1 hany))
        refine polled_give (c := c) (fun r => ?_) (fun r => ?_) (fun r hr => (acceptsCreated_iff.1 hr).1.conn) hr
        · unfold Request.takeCreated Request.complete; split <;> rfl
        · unfold Request.takeCreated Request.complete; split <;> simp [Request.slot]
      · exact ⟨moves_pushFreeNew t c, rfl⟩

/-- A pinged connection goes back to its request, whose slot is empty; without the request it is lost. -/
theorem polled_restorePinged (hempty : ∀ r, s.request? rid = some r → r.conn = none) (c : PooledConn C) :
    Polled s (restorePinged s rid c) (if (s.request? rid).isSome then {c.id} else 0) 0 := by
  cases hr : s.request? rid with
  | none =>
    have : restorePinged s rid c = s := by
      rw [restorePinged, PoolState.modifyRequest, modifyFirst_of_find?_eq_none hr]
    rw [this]
    exact Polled.refl s
  | some r =>
    have hm := moves_modifyRequest_slot (f := fun r : Request C => { r with conn := some c }) (fun _ => rfl) hr
    rw [slot_eq_zero.2 (hempty r hr)] at hm
    exact ⟨hm, rfl⟩

/-! ### Closing -/

/-- Shutting down keeps every id and empties every container but the drop queue. -/
theorem held_requestWorkerShutdownLocked (s : PoolState C) : (requestWorkerShutdownLocked s).held = s.held := by
  have hslots : slots ((s.requests.filter (·.inProgress)).map
      fun r => ({ r with waiting := false, conn := none } : Request C)) = 0 := by
    generalize s.requests.filter (·.inProgress) = l
    induction l with
    | nil => rfl
    | cons r l ih => rw [List.map_cons, slots_cons, ih]; rfl
  simp only [PoolState.held, requestWorkerShutdownLocked, hslots, ids_append, ids_nil, ids_filterMap_conn]
  abel

theorem keys_requestWorkerShutdownLocked (s : PoolState C) :
    (requestWorkerShutdownLocked s).keys.Sublist s.keys := by
  have h : (requestWorkerShutdownLocked s).keys = (s.requests.filter (·.inProgress)).map Request.id := by
    simp [PoolState.keys, requestWorkerShutdownLocked]
  rw [h]
  exact List.filter_sublist.map _

end OracleThin.Pool
