import OracleThin.Pool.Ownership

/-!
# Requests that wait without being queued

A poll that does not fulfil its request marks it as queued for the worker, which then looks for a connection. There is
one exception. A failed ping leaves `requires_ping` on, and the next scan stops after its first candidate: the flag
reads as if the candidate had been attached. If the candidate was dropped instead, the request has no connection and
is not queued.
-/

namespace OracleThin.Pool

open Lib

variable {C : Type} {env : Env C} {s t : PoolState C} {rid : Nat} {r : Request C}

/-- Evaluating the request leaves it fulfilled, failed, abandoned or queued for the worker. -/
def StaysQueued (env : Env C) (s : PoolState C) (rid : Nat) : Prop :=
  ∀ r, (fulfill env s rid).1.isOk = true → (fulfill env s rid).2.request? rid = some r → r.waiting = true →
    r.completed = false → r.error = none → r.bgProcessing = true

/-- A scan that stalls ends the poll and leaves the request as it was. -/
theorem fulfill_stalls (hr : Fresh s r) (hst : Stalls env s.config r (candidates s r)) :
    ∃ t, fulfill env s r.id = (.ok false, t) ∧ t.request? r.id = some r := by
  obtain ⟨hping, conn, hhead, hdead⟩ := hst
  have hscan := scan_scanFree env hr.found hr.completed
  simp only [fulfill, hr.isOpen, hr.found, hr.error, hr.completed, hr.bgProcessing, Bool.not_true,
    Bool.false_eq_true, if_false]
  generalize scanFree env s r = out at hscan ⊢
  generalize candidates s r = cs at hscan hhead
  cases hscan with
  | exhausted => cases hhead
  | dropped _ _ _ hnot => rw [hping] at hnot; cases hnot
  | stalled hleave => exact ⟨_, rfl, by rw [dropConn_request?, hleave.request?]; exact hr.found⟩
  | attached _ _ hlive =>
    cases hhead
    rw [hlive] at hdead
    cases hdead

/-- A request that a poll leaves waiting is queued, unless the scan for it stalls. -/
theorem staysQueued_iff (env : Env C) (s : PoolState C) (rid : Nat) :
    StaysQueued env s rid ↔
      ¬∃ r, Fresh s r ∧ r.id = rid ∧ r.waiting = true ∧ Stalls env s.config r (candidates s r) := by
  constructor
  · rintro hqueued ⟨r, hr, rfl, hw, hst⟩
    obtain ⟨t, hful, hrt⟩ := fulfill_stalls hr hst
    have := hqueued r (by rw [hful]; rfl) (by rw [hful]; exact hrt) hw hr.completed hr.error
    rw [hr.bgProcessing] at this
    cases this
  · intro hno r' hok hr' hw hc _
    have hend := fulfillEnds_fulfill env s rid
    generalize fulfill env s rid = out at hend hok hr'
    cases hend with
    | refused => cases hok
    | failed => cases hok
    | completed _ hr hcr =>
      cases hr.symm.trans hr'
      rw [hc] at hcr
      cases hcr
    | queued hr _ _ hb =>
      cases hr.symm.trans hr'
      exact hb
    | stopped hr hid hd _ hst =>
      subst hid
      cases hr.found.symm.trans ((hd.request? _).symm.trans hr')
      exact absurd ⟨_, hr, rfl, hw, hst⟩ hno
    | @attached r t u conn hr hid hd hleave _ _ =>
      subst hid
      have hru : u.request? r.id = some r := by rw [hleave.request?, hd.request?]; exact hr.found
      cases (request?_modifyRequest (Request.attach_id _ conn) hru).symm.trans hr'
      cases hping : pingRequired env t.config conn with
      | true => rfl
      | false => rw [hping] at hc; cases hc
    | @enlisted r t out hr hid hd _ hq =>
      subst hid
      have hrt : t.request? r.id = some r := by rw [hd.request?]; exact hr.found
      have hbg : ∀ (v : PoolState C) replacing extra, v.request? r.id = some r →
          (v.modifyRequest r.id (Request.enlist replacing extra)).request? r.id = some r' →
          r'.bgProcessing = true := by
        intro v replacing extra hrv hv
        cases (request?_modifyRequest (f := Request.enlist replacing extra) (fun _ => rfl) hrv).symm.trans hv
        rfl
      cases hq with
      | victim _ hleave => exact hbg _ _ _ ((hleave.request? _).trans hrt) hr'
      | extra | waits | grows => exact hbg _ _ _ hrt hr'
      | refused => cases hok

/-- The worker opens two connections, and the ping of the one that the acquirer got first fails. -/
def failedPingRun : List (Action Unit) :=
  List.replicate 8 (.work .calm) ++ [.acquire .calm {}, .poll .calm 1] ++ List.replicate 2 (.work .calm) ++
    [.work { Answers.calm with healthy := false }, .work .calm]

/-- The other connection is dead as well: the next poll drops it and leaves the request waiting outside the queue. -/
theorem failedPingRun_stalls :
    ∃ w, exec step (World.start { PoolConfig.new 2 2 1 with pingIntervalSecs := 0 }) failedPingRun = some w ∧
      1 ∈ w.acquiring ∧ ¬StaysQueued ⟨fun _ => false, fun _ => 0⟩ w.state 1 :=
  ⟨_, rfl, by decide, fun h => absurd (h _ rfl rfl rfl rfl rfl) (by decide)⟩

end OracleThin.Pool
