import OracleThin.Pool.Fulfill

/-!
# What the lock sections can do

An inversion or an induction rule for each lock section that loops or branches: a scan drops unusable candidates one
by one until it attaches one, stops or runs out of them (`fulfill_induct`), a drain returns busy connections one by
one (`drainDropReturns_induct`), a sweep drops idle connections one by one (`sweepIdleTimeout_induct`).  An invariant
of the locked state is then checked on single edits: a connection leaves a free list, a request is changed, an effect
is scheduled.
-/

namespace OracleThin.Pool

open Lib

variable {C : Type} {env : Env C} {s t u : PoolState C} {rid : Nat} {r : Request C} {conn : PooledConn C}

/-! ### The free lists -/

/-- The free connections. -/
def PoolState.free (s : PoolState C) : List (PooledConn C) := s.freeNew ++ s.freeUsed

private theorem free_dropConn (s : PoolState C) (conn : PooledConn C) : (dropConn s conn).free = s.free := by
  simp [PoolState.free]

variable {f : Request C → Request C} {c : PooledConn C}

namespace Leaves

variable (h : Leaves s conn u)

include h

theorem mem_freeUsed (hc : c ∈ u.freeUsed) : c ∈ s.freeUsed := by
  cases h with
  | used he => rw [he]; simp only [List.mem_append, List.mem_cons] at hc ⊢; tauto
  | new _ => exact hc

theorem mem_freeNew (hc : c ∈ u.freeNew) : c ∈ s.freeNew := by
  cases h with
  | used _ => exact hc
  | new he => rw [he]; simp only [List.mem_append, List.mem_cons] at hc ⊢; tauto

theorem length_free : u.free.length + 1 = s.free.length := by
  cases h with
  | used he | new he => simp only [PoolState.free, he, List.length_append, List.length_cons]; omega

end Leaves

/-! ### The scans -/

/-- The scan for `r` has dropped unusable candidates of `s`, which gives `t`. -/
inductive Drops (env : Env C) (r : Request C) : PoolState C → PoolState C → Prop
  | refl (s : PoolState C) : Drops env r s s
  | cons {s u t : PoolState C} {conn : PooledConn C} (hleave : Leaves s conn u) (hcand : Candidate r s conn)
      (hdead : usable env s.config conn = false) (hrest : Drops env r (dropConn u conn) t) : Drops env r s t

namespace Drops

section

variable (h : Drops env r s t)

include h

theorem trans (h' : Drops env r t u) : Drops env r s u := by
  induction h with
  | refl => exact h'
  | cons hleave hcand hdead _ ih => exact .cons hleave hcand hdead (ih h')

theorem requests : t.requests = s.requests := by
  induction h with
  | refl => rfl
  | cons hleave _ _ _ ih => rw [ih, dropConn_requests, hleave.requests]

theorem request? (rid : Nat) : t.request? rid = s.request? rid := by
  rw [PoolState.request?, h.requests]; rfl

theorem isOpen : t.isOpen = s.isOpen := by
  induction h with
  | refl => rfl
  | cons hleave _ _ _ ih => rw [ih, (moves_dropConn _ _).isOpen, hleave.isOpen]

theorem mem_freeUsed (hc : c ∈ t.freeUsed) : c ∈ s.freeUsed := by
  induction h with
  | refl => exact hc
  | cons hleave _ _ _ ih => exact hleave.mem_freeUsed (by simpa using ih hc)

theorem mem_freeNew (hc : c ∈ t.freeNew) : c ∈ s.freeNew := by
  induction h with
  | refl => exact hc
  | cons hleave _ _ _ ih => exact hleave.mem_freeNew (by simpa using ih hc)

theorem candidate (hc : Candidate r t conn) : Candidate r s conn := by
  rcases hc with ⟨hw, hm, hcl⟩ | ⟨hcl, hm⟩
  · exact Or.inl ⟨hw, h.mem_freeUsed hm, hcl⟩
  · exact Or.inr ⟨hcl, h.mem_freeNew hm⟩

theorem eq_of_usable (husable : ∀ conn, Candidate r s conn → usable env s.config conn = true) : t = s := by
  cases h with
  | refl => rfl
  | cons _ hcand hdead => exact absurd (husable _ hcand) (by simp [hdead])

end

end Drops

/-- The request `r` waited for a ping already, and the first of the candidates is not usable. -/
def Stalls (env : Env C) (config : PoolConfig) (r : Request C) (cs : List (PooledConn C)) : Prop :=
  r.requiresPing = true ∧ ∃ conn, cs.head? = some conn ∧ usable env config conn = false

/-- How a scan for `r` over the candidates `cs` can end, with `Q` if no candidate is left. -/
inductive ScanEnds (env : Env C) (r : Request C) (Q : PoolState C → Prop) (cs : List (PooledConn C))
    (s : PoolState C) : Option (Except PoolError Bool) × PoolState C → Prop
  | exhausted {t : PoolState C} (hd : Drops env r s t) (hQ : Q t) : ScanEnds env r Q cs s (none, t)
  | stopped {t : PoolState C} (hd : Drops env r s t) (hlt : t.free.length < s.free.length)
      (hstalls : Stalls env s.config r cs) : ScanEnds env r Q cs s (some (.ok false), t)
  | attached {t u : PoolState C} {conn : PooledConn C} (hd : Drops env r s t) (hleave : Leaves t conn u)
      (hcand : Candidate r t conn) (hlive : usable env t.config conn = true) :
      ScanEnds env r Q cs s (some (.ok (!pingRequired env t.config conn)),
        u.modifyRequest r.id (Request.attach (pingRequired env t.config conn) conn))

theorem Scan.ends {Q : PoolState C → Prop} {cs : List (PooledConn C)}
    {out : Option (Except PoolError Bool) × PoolState C} (h : Scan env r Q cs s out) : ScanEnds env r Q cs s out := by
  induction h with
  | exhausted hQ => exact .exhausted (.refl _) hQ
  | dropped hleave hcand hdead hping _ ih =>
    have hdrop := Drops.cons hleave hcand hdead (.refl _)
    cases ih with
    | exhausted hd hQ => exact .exhausted (hdrop.trans hd) hQ
    | stopped _ _ hstalls => exact absurd (hping.symm.trans hstalls.1) nofun
    | attached hd hleave hcand hlive => exact .attached (hdrop.trans hd) hleave hcand hlive
  | stalled hleave hcand hdead hping =>
    refine .stopped (.cons hleave hcand hdead (.refl _)) ?_ ⟨hping, _, rfl, hdead⟩
    rw [free_dropConn]
    have := hleave.length_free
    omega
  | attached hleave hcand hlive => exact .attached (.refl _) hleave hcand hlive

/-! ### Fulfilling a request -/

/-- The update of a request that is queued for the worker. -/
def Request.enlist (replacing extra : Bool) (r : Request C) : Request C :=
  { r with
    requiresPing := false
    isReplacing := r.isReplacing || replacing
    isExtra := r.isExtra || extra
    bgProcessing := true
    completed := false }

/-- A request that does not wait for a ping any more. -/
def Request.unping (r : Request C) : Request C := { r with requiresPing := false }

/-- How the end of `fulfill` leaves a request `r` for which no free connection was usable. -/
inductive QueueEnds (r : Request C) (s : PoolState C) : Except PoolError Bool × PoolState C → Prop
  /-- The pool is full, and an idle connection of another class makes room. -/
  | victim {u : PoolState C} {conn : PooledConn C} (hfull : s.config.max ≤ reservedOpenCount s)
      (hleave : Leaves s conn u) :
      QueueEnds r s (.ok false, (pushToDrop u conn).modifyRequest r.id (Request.enlist true false))
  | extra (hforce : s.forceGet = true) : QueueEnds r s (.ok false, s.modifyRequest r.id (Request.enlist false true))
  | refused (hempty : s.free = []) :
      QueueEnds r s (.error .noConnectionAvailable, s.modifyRequest r.id Request.unping)
  | waits (hwait : s.config.max ≤ reservedOpenCount s ∨ r.cclassMatches = false) :
      QueueEnds r s (.ok false, s.modifyRequest r.id (Request.enlist false false))
  | grows (hspare : reservedOpenCount s < s.config.max) (hm : r.cclassMatches = true) :
      QueueEnds r s (.ok false, (scheduleOpenEffects s
        (growth (s.modifyRequest r.id Request.unping) r.wantsNew r.cclass r.cclassMatches)).modifyRequest r.id
          (Request.enlist false false))

private theorem countP_unping (q : Request C → Bool) (hr : s.request? rid = some r) (hq : q r.unping = q r) :
    (s.modifyRequest rid Request.unping).requests.countP q = s.requests.countP q := by
  have h := countP_modifyFirst (f := Request.unping) q hr
  rw [hq] at h
  exact Nat.add_right_cancel h

theorem reservedOpenCount_unping (hr : s.request? rid = some r) (hb : r.bgProcessing = false) :
    reservedOpenCount (s.modifyRequest rid Request.unping) = reservedOpenCount s := by
  have hconn := countP_unping (·.conn.isSome) hr rfl
  have hopen := countP_unping requestIsOpening hr (by simp [requestIsOpening, Request.unping, hb])
  simp only [reservedOpenCount, activeOpenCount, pendingOpenCount, hconn, hopen]
  rfl

theorem modifyRequest_modifyRequest {g : Request C → Request C} (hf : ∀ r, (f r).id = r.id) :
    (s.modifyRequest rid f).modifyRequest rid g = s.modifyRequest rid fun r => g (f r) := by
  simp only [PoolState.modifyRequest]
  rw [modifyFirst_modifyFirst fun x => by rw [hf]]

section Enlist

variable (t : PoolState C) (rid : Nat)

private theorem enlist_of {replacing extra : Bool} (hid : ∀ r, (f r).id = r.id)
    (hf : ∀ r, { f r with bgProcessing := true, completed := false } = r.enlist replacing extra) :
    addRequestForBg (t.modifyRequest rid f) rid = t.modifyRequest rid (Request.enlist replacing extra) := by
  rw [addRequestForBg, modifyRequest_modifyRequest hid]
  exact congrArg (t.modifyRequest rid) (funext hf)

private theorem enlist_waiting :
    addRequestForBg (t.modifyRequest rid Request.unping) rid = t.modifyRequest rid (Request.enlist false false) :=
  enlist_of t rid (fun _ => rfl) fun r => by simp [Request.enlist, Request.unping]

private theorem enlist_marked :
    addRequestForBg ((t.modifyRequest rid Request.unping).modifyRequest rid fun r => { r with isReplacing := true })
        rid = t.modifyRequest rid (Request.enlist true false) ∧
      addRequestForBg ((t.modifyRequest rid Request.unping).modifyRequest rid fun r => { r with isExtra := true })
        rid = t.modifyRequest rid (Request.enlist false true) := by
  have hunping : ∀ r : Request C, r.unping.id = r.id := fun _ => rfl
  rw [modifyRequest_modifyRequest hunping, modifyRequest_modifyRequest hunping]
  constructor <;> exact enlist_of t rid (fun _ => rfl) fun r => by simp [Request.enlist, Request.unping]

end Enlist

theorem queueEnds_queueRequest (hr : s.request? r.id = some r) (hb : r.bgProcessing = false) :
    QueueEnds r s (queueRequest s r.id r.wantsNew r.cclass r.cclassMatches) := by
  have hres := reservedOpenCount_unping hr hb
  change QueueEnds r s (if s.config.max ≤ reservedOpenCount (s.modifyRequest r.id Request.unping) then _ else _)
  rw [hres]
  split
  · rename_i hfull
    split
    · rename_i victim hlast
      have := QueueEnds.victim (r := r) hfull (leaves_lastNew hlast)
      rwa [← (enlist_marked ..).1] at this
    · rename_i hnew
      split
      · rename_i victim hlast
        have := QueueEnds.victim (r := r) hfull (leaves_lastUsed hlast)
        rwa [← (enlist_marked ..).1] at this
      · rename_i hused
        have hempty : s.free = [] :=
          List.append_eq_nil_iff.2 ⟨List.getLast?_eq_none_iff.1 hnew, List.getLast?_eq_none_iff.1 hused⟩
        split
        · rename_i hforce
          have := QueueEnds.extra (r := r) (s := s) hforce
          rwa [← (enlist_marked ..).2] at this
        · split
          · exact .refused hempty
          · have := QueueEnds.waits (r := r) (Or.inl hfull)
            rwa [← enlist_waiting] at this
  · rename_i hspare
    split
    · rename_i hm
      have := QueueEnds.grows (Nat.lt_of_not_le hspare) hm
      rwa [← enlist_waiting] at this
    · rename_i hm
      have := QueueEnds.waits (s := s) (Or.inr (Bool.eq_false_iff.2 hm))
      rwa [← enlist_waiting] at this

/-- The request `r` of an acquire future that has to look for a connection. -/
structure Fresh (s : PoolState C) (r : Request C) : Prop where
  isOpen : s.isOpen = true
  found : s.request? r.id = some r
  error : r.error = none
  completed : r.completed = false
  bgProcessing : r.bgProcessing = false

/-- How `fulfill` can end for the request `rid`. -/
inductive FulfillEnds (env : Env C) (s : PoolState C) (rid : Nat) : Except PoolError Bool × PoolState C → Prop
  | refused {err : PoolError} (h : s.isOpen = false ∨ s.request? rid = none) : FulfillEnds env s rid (.error err, s)
  | failed {r : Request C} {err : String} (hr : s.request? rid = some r) (he : r.error = some err) :
      FulfillEnds env s rid (.error (.backend err), s.modifyRequest rid fun r => { r with error := none })
  | completed {r : Request C} (hopen : s.isOpen = true) (hr : s.request? rid = some r) (hc : r.completed = true) :
      FulfillEnds env s rid (.ok true, s)
  | queued {r : Request C} (hr : s.request? rid = some r) (hc : r.completed = false) (he : r.error = none)
      (hb : r.bgProcessing = true) : FulfillEnds env s rid (.ok false, s)
  | stopped {r : Request C} {t : PoolState C} (hr : Fresh s r) (hid : r.id = rid) (hd : Drops env r s t)
      (hlt : t.free.length < s.free.length) (hstalls : Stalls env s.config r (candidates s r)) :
      FulfillEnds env s rid (.ok false, t)
  | attached {r : Request C} {t u : PoolState C} {conn : PooledConn C} (hr : Fresh s r) (hid : r.id = rid)
      (hd : Drops env r s t) (hleave : Leaves t conn u) (hcand : Candidate r t conn)
      (hlive : usable env t.config conn = true) :
      FulfillEnds env s rid (.ok (!pingRequired env t.config conn),
        u.modifyRequest r.id (Request.attach (pingRequired env t.config conn) conn))
  | enlisted {r : Request C} {t : PoolState C} {out : Except PoolError Bool × PoolState C} (hr : Fresh s r)
      (hid : r.id = rid) (hd : Drops env r s t) (hex : Exhausted r t) (hq : QueueEnds r t out) :
      FulfillEnds env s rid out

theorem fulfillEnds_fulfill (env : Env C) (s : PoolState C) (rid : Nat) :
    FulfillEnds env s rid (fulfill env s rid) := by
  unfold fulfill
  split
  · rename_i hclosed
    exact .refused (Or.inl (by simpa using hclosed))
  · rename_i hopen
    split
    · rename_i hr
      exact .refused (Or.inr hr)
    · rename_i r hr
      split
      · rename_i err he
        exact .failed hr he
      · rename_i he
        split
        · rename_i hc
          exact .completed (by simpa using hopen) hr hc
        · rename_i hc
          have hc : r.completed = false := Bool.eq_false_iff.2 hc
          split
          · rename_i hb
            exact .queued hr hc he hb
          · rename_i hb
            have hb : r.bgProcessing = false := Bool.eq_false_iff.2 hb
            obtain rfl := request?_id hr
            have hf : Fresh s r := ⟨by simpa using hopen, hr, he, hc, hb⟩
            have hscan := (scan_scanFree env hr hc).ends
            generalize scanFree env s r = out at hscan ⊢
            cases hscan with
            | @exhausted t hd hQ =>
              exact .enlisted hf rfl hd hQ (queueEnds_queueRequest (by rw [hd.request?]; exact hr) hb)
            | stopped hd hlt hstalls => exact .stopped hf rfl hd hlt hstalls
            | attached hd hleave hcand hlive => exact .attached hf rfl hd hleave hcand hlive

/-- How `poll_request_completion` can end for the request `rid`. -/
inductive PollEnds (env : Env C) (s : PoolState C) (rid : Nat) : Except PoolError (Option Nat) × PoolState C → Prop
  | finished {t : PoolState C} {r : Request C} {conn : PooledConn C} (h : FulfillEnds env s rid (.ok true, t))
      (hr : t.request? rid = some r) (hc : r.completed = true) (hconn : r.conn = some conn) :
      PollEnds env s rid (.ok (some conn.id),
        { t.removeRequest rid with busy := t.busy ++ [{ conn with everAcquired := true }] })
  | lost {t : PoolState C} {r : Request C} {err : PoolError} (h : FulfillEnds env s rid (.ok true, t))
      (hr : t.request? rid = some r) (hc : r.completed = true) (hconn : r.conn = none) :
      PollEnds env s rid (.error err, t.removeRequest rid)
  | waiting {t : PoolState C} (h : FulfillEnds env s rid (.ok false, t)) : PollEnds env s rid (.ok none, t)
  | failed {t : PoolState C} {err : PoolError} (h : FulfillEnds env s rid (.error err, t)) :
      PollEnds env s rid (.error err, abandonRequest t rid)

theorem FulfillEnds.completed_of_ok {b : Bool} (h : FulfillEnds env s rid (.ok b, t)) (hb : b = true) :
    ∃ r r', s.request? rid = some r ∧ t.request? rid = some r' ∧ r'.completed = true ∧ r'.cclass = r.cclass ∧
      t.isOpen = true := by
  cases h with
  | completed hopen hr hc => exact ⟨_, _, hr, hr, hc, rfl, hopen⟩
  | queued | stopped => cases hb
  | @attached r t u conn hr hid hd hleave hcand hlive =>
    subst hid
    have hru : u.request? r.id = some r := by rw [hleave.request?, hd.request?]; exact hr.found
    rw [Bool.not_eq_true'] at hb
    refine ⟨r, _, hr.found, request?_modifyRequest (Request.attach_id _ conn) hru, ?_, ?_, ?_⟩
    · rw [hb]; rfl
    · rw [hb]; rfl
    · exact (hleave.isOpen.trans hd.isOpen).trans hr.isOpen
  | enlisted hr hid hd hex hq => cases hq <;> cases hb

theorem pollEnds_pollRequestCompletion (env : Env C) (s : PoolState C) (rid : Nat) :
    PollEnds env s rid (pollRequestCompletion env s rid) := by
  have h := fulfillEnds_fulfill env s rid
  unfold pollRequestCompletion
  generalize fulfill env s rid = out at h ⊢
  obtain ⟨res, t⟩ := out
  rcases res with err | _ | _
  · exact .failed h
  · exact .waiting h
  · obtain ⟨-, r, -, hr, hc, -⟩ := h.completed_of_ok rfl
    simp only [finishCompletedRequest, hr]
    cases hconn : r.conn with
    | none => exact .lost h hr hc hconn
    | some conn => exact .finished h hr hc hconn

/-- What dropping a candidate keeps is kept by a scan that only drops candidates. -/
theorem Drops.induct {P : PoolState C → Prop} (hs : P s)
    (hdrop : ∀ t u conn, Drops env r s t → P t → Leaves t conn u → Candidate r t conn →
      usable env t.config conn = false → P (dropConn u conn)) (h : Drops env r s t) : P t := by
  have key : ∀ t t', Drops env r t t' → Drops env r s t → P t → P t' := by
    intro t t' h
    induction h with
    | refl => exact fun _ ht => ht
    | cons hleave hcand hdead _ ih =>
      intro hd ht
      exact ih (hd.trans (.cons hleave hcand hdead (.refl _))) (hdrop _ _ _ hd ht hleave hcand hdead)
  exact key s t h (.refl s) hs

/-! ### Returning a connection -/

/-- A request that still looks for a connection and is not in the worker's hands. -/
structure Request.Unserved (r : Request C) : Prop where
  inProgress : r.inProgress = false
  conn : r.conn = none
  waiting : r.waiting = true
  completed : r.completed = false
  error : r.error = none

private theorem unserved_iff :
    (!(r.inProgress || r.conn.isSome || !r.waiting || r.completed || r.error.isSome)) = true ↔ r.Unserved := by
  simp only [Bool.not_eq_true', Bool.or_eq_false_iff, Option.isSome_eq_false_iff, Option.isNone_iff_eq_none,
    Bool.not_eq_false']
  exact ⟨fun ⟨⟨⟨⟨hp, hc⟩, hw⟩, hd⟩, he⟩ => ⟨hp, hc, hw, hd, he⟩,
    fun ⟨hp, hc, hw, hd, he⟩ => ⟨⟨⟨⟨hp, hc⟩, hw⟩, hd⟩, he⟩⟩

theorem acceptsReturned_iff : acceptsReturned conn r = true ↔
    r.Unserved ∧ r.wantsNew = false ∧ classMatches r.cclass conn = true := by
  rw [← unserved_iff, acceptsReturned]
  cases r.inProgress <;> cases r.wantsNew <;> simp

theorem acceptsCreated_iff {full : Bool} : acceptsCreated full conn r = true ↔
    r.Unserved ∧ (classMatches r.cclass conn = true ∨ (r.cclassMatches = false ∧ full = true)) := by
  rw [← unserved_iff, acceptsCreated]
  simp only [Bool.and_eq_true, Bool.or_eq_true, Bool.not_eq_true']

/-- A connection as it is when it has come back. -/
def PooledConn.returned (env : Env C) (conn : PooledConn C) : PooledConn C :=
  { conn with isPoolExtra := false, timeReturned := env.now conn }

/-- Whether the pool keeps a connection that comes back. -/
def keepsReturned (env : Env C) (s : PoolState C) (conn : PooledConn C) : Bool :=
  usable env s.config conn && !(conn.isPoolExtra && decide (s.config.max < saturatingU32 (activeOpenCount s + 1)))

/-- How a connection taken out of the busy list comes back. -/
inductive ReturnEnds (env : Env C) (s : PoolState C) (conn : PooledConn C) : PoolState C → Prop
  | dropped {conn' : PooledConn C} (hkeep : keepsReturned env s conn = false) (hid : conn'.id = conn.id) :
      ReturnEnds env s conn (dropConn s conn')
  | given {r : Request C} (hkeep : keepsReturned env s conn = true)
      (hr : s.requests.find? (acceptsReturned (conn.returned env)) = some r) :
      ReturnEnds env s conn { s with
        requests :=
          modifyFirst (acceptsReturned (conn.returned env)) (Request.complete (conn.returned env)) s.requests }
  | freed (hkeep : keepsReturned env s conn = true)
      (hr : s.requests.find? (acceptsReturned (conn.returned env)) = none) :
      ReturnEnds env s conn { s with freeUsed := s.freeUsed ++ [conn.returned env] }

private theorem returnEnds_returnConnectionHelper (env : Env C) (s : PoolState C) (conn : PooledConn C) :
    ReturnEnds env s conn (returnConnectionHelper env s conn) := by
  unfold returnConnectionHelper
  split
  · rename_i hdead
    exact .dropped (by simpa [keepsReturned, usable] using fun h => absurd h (by simpa using hdead)) rfl
  · rename_i hopen
    split
    · rename_i hextra
      exact .dropped (by rw [keepsReturned, hextra]; simp) rfl
    · rename_i hextra
      dsimp only
      split
      · rename_i hold
        exact .dropped (by simp [keepsReturned, usable, hold]) rfl
      · rename_i hyoung
        have hkeep : keepsReturned env s conn = true := by
          rw [keepsReturned, Bool.eq_false_iff.2 hextra, usable, Bool.eq_false_iff.2 hyoung]
          simpa using hopen
        split
        · rename_i hany
          obtain ⟨r, hr⟩ := Option.isSome_iff_exists.1 ((List.find?_isSome).2 (List.any_eq_true.1 hany))
          exact .given hkeep hr
        · rename_i hany
          refine .freed hkeep (List.find?_eq_none.2 fun r hr hacc => hany ?_)
          exact List.any_eq_true.2 ⟨r, hr, hacc⟩

/-- What `returnBusy` does: nothing, or the connection leaves the busy list and comes back. -/
theorem returnBusy_eq_some {connId : Nat} (h : returnBusy env s connId = some t) :
    ∃ conn, s.busy.find? (·.id == connId) = some conn ∧
      ReturnEnds env { s with busy := s.busy.eraseP (·.id == connId) } conn t := by
  unfold returnBusy at h
  split at h
  · cases h
  · rename_i conn hc
    cases h
    exact ⟨conn, hc, returnEnds_returnConnectionHelper env _ conn⟩

/-- What every return of a busy connection to the open pool keeps is kept by a drain. -/
theorem drainDropReturns_induct {P : PoolState C → Prop} {queue : List Nat} (hs : P s)
    (hreturn : ∀ t t' connId conn, P t → t.isOpen = true → connId ∈ queue →
      t.busy.find? (·.id == connId) = some conn →
      ReturnEnds env { t with busy := t.busy.eraseP (·.id == connId) } conn t' → P t') :
    P (drainDropReturns env s queue) := by
  induction queue generalizing s with
  | nil => exact hs
  | cons connId rest ih =>
    have hrest : ∀ t t' connId conn, P t → t.isOpen = true → connId ∈ rest →
        t.busy.find? (·.id == connId) = some conn →
        ReturnEnds env { t with busy := t.busy.eraseP (·.id == connId) } conn t' → P t' :=
      fun t t' i c ht ho hi => hreturn t t' i c ht ho (List.mem_cons_of_mem _ hi)
    rw [drainDropReturns]
    split
    · rename_i hopen
      cases h : returnBusy env s connId with
      | none => exact ih hs hrest
      | some s' =>
        obtain ⟨conn, hc, hret⟩ := returnBusy_eq_some h
        exact ih (hreturn s s' connId conn hs hopen (List.mem_cons_self ..) hc hret) hrest
    · exact ih hs hrest

/-! ### Sweeping -/

section

variable {P : PoolState C → Prop} (hs : P s) (hdrop : ∀ t u conn, P t → Leaves t conn u →
    t.config.min < activeOpenCount t → secs t.config.timeoutSecs ≤ env.now conn - conn.timeReturned →
    P (dropConn u conn))
include hs hdrop

private theorem sweepList_induct {get : PoolState C → List (PooledConn C)}
    {set : PoolState C → List (PooledConn C) → PoolState C}
    (hget : ∀ t conn rest, get t = conn :: rest → Leaves t conn (set t rest)) (n : Nat) :
    P (sweepList env get set n s).2 := by
  induction n generalizing s with
  | zero => exact hs
  | succ n ih =>
    rw [sweepList]
    split
    · exact hs
    · rename_i hmin
      split
      · exact hs
      · rename_i conn rest hlist
        split
        · exact hs
        · rename_i hidle
          exact ih (hdrop s _ conn hs (hget s conn rest hlist) (Nat.lt_of_not_le hmin) (Nat.le_of_not_lt hidle))

/-- What dropping a connection idle for too long keeps, as long as more than the minimum are open, is kept by a
sweep. -/
theorem sweepIdleTimeout_induct : P (sweepIdleTimeout env s) := by
  have hnew : P (sweepNew env s).2 := sweepList_induct hs hdrop (fun _ _ _ h => Leaves.new (a := []) h) _
  unfold sweepIdleTimeout
  split
  · exact hs
  · generalize sweepNew env s = out at hnew ⊢
    obtain ⟨full, t⟩ := out
    cases full with
    | true => exact hnew
    | false => exact sweepList_induct hnew hdrop (fun _ _ _ h => Leaves.used (a := []) h) _

end

/-! ### The worker's sections -/

theorem removeRequest_modifyRequest (hf : ∀ r, (f r).id = r.id) :
    (s.modifyRequest rid f).removeRequest rid = s.removeRequest rid := by
  simp only [PoolState.modifyRequest, PoolState.removeRequest]
  rw [eraseP_modifyFirst fun x => by rw [hf]]

/-- With distinct identifiers, an update touches the one request it is made for. -/
theorem mem_modifyRequest (hk : s.keys.Nodup) (hr : r ∈ (s.modifyRequest rid f).requests)
    (hf : ∀ r, (f r).id = r.id) : (r ∈ s.requests ∧ r.id ≠ rid) ∨ ∃ r₀, s.request? rid = some r₀ ∧ r = f r₀ := by
  by_cases hid : r.id = rid
  · right
    have hk' : (s.modifyRequest rid f).keys.Nodup := by
      simp only [PoolState.keys, PoolState.modifyRequest, map_modifyFirst_of_eq Request.id hf]
      exact hk
    have hfind := (request?_eq_some_iff hk').2 ⟨hr, hid⟩
    rw [PoolState.request?, PoolState.modifyRequest,
      find?_modifyFirst_self (f := f) (p := (·.id == rid)) fun x => by rw [hf], Option.map_eq_some_iff] at hfind
    obtain ⟨r₀, hr₀, rfl⟩ := hfind
    exact ⟨r₀, hr₀, rfl⟩
  · rcases mem_modifyFirst hr with hr | ⟨r₀, hr₀, rfl⟩
    · exact Or.inl ⟨hr, hid⟩
    · rw [hf] at hid
      exact absurd (request?_id hr₀) hid

/-- With distinct identifiers, a removal removes the one request it is made for. -/
theorem mem_removeRequest (hk : s.keys.Nodup) (hr : r ∈ (s.removeRequest rid).requests) :
    r ∈ s.requests ∧ r.id ≠ rid := by
  refine ⟨List.mem_of_mem_eraseP hr, fun hid => ?_⟩
  have hfind := (request?_eq_some_iff hk).2 ⟨List.mem_of_mem_eraseP hr, hid⟩
  obtain ⟨a, b, hsplit, hrest, -⟩ := find?_eq_some_split hfind
  have hr' : r ∈ a ++ b := by rw [← hrest]; exact hr
  have hnd : ((a ++ r :: b).map Request.id).Nodup := by rw [← hsplit]; exact hk
  simp only [List.map_append, List.map_cons, List.nodup_append, List.nodup_cons, List.mem_map, List.mem_cons] at hnd
  rcases List.mem_append.1 hr' with hr' | hr'
  · exact hnd.2.2 _ ⟨r, hr', rfl⟩ _ (Or.inl rfl) rfl
  · exact hnd.2.1.1 ⟨r, hr', rfl⟩

/-- The request that `get_next_request` would pick: the first one it does not pass over, if it can be worked on. -/
def Picks (s : PoolState C) (r : Request C) : Prop :=
  s.requests.find? (!transparentToWorker ·) = some r ∧ workable s r = true

/-- `get_next_request` picks nothing, or marks the request it picks. -/
theorem getNextRequest_cases (s : PoolState C) :
    (peekNextRequest s = none ∧ getNextRequest s = (none, s)) ∨ ∃ r, Picks s r ∧
      getNextRequest s = (some r.id, s.modifyRequest r.id fun r => { r with inProgress := r.waiting }) := by
  unfold getNextRequest
  cases hpeek : peekNextRequest s with
  | none => exact Or.inl ⟨rfl, rfl⟩
  | some id =>
    unfold peekNextRequest at hpeek
    split at hpeek
    · cases hpeek
    · rename_i r hr
      split at hpeek
      · rename_i hw
        cases hpeek
        exact Or.inr ⟨r, ⟨hr, hw⟩, rfl⟩
      · cases hpeek

/-- How `abandon_request` leaves the state. -/
inductive AbandonEnds (s : PoolState C) (rid : Nat) : PoolState C → Prop
  | unknown (hr : s.request? rid = none) : AbandonEnds s rid s
  | marked {r : Request C} (hr : s.request? rid = some r) (hb : r.bgProcessing = true) :
      AbandonEnds s rid (s.modifyRequest rid fun r => { r with waiting := false })
  | removed {r : Request C} (hr : s.request? rid = some r) (hb : r.bgProcessing = false) :
      AbandonEnds s rid (reject (s.removeRequest rid) r.conn)

theorem abandonEnds_abandonRequest (s : PoolState C) (rid : Nat) : AbandonEnds s rid (abandonRequest s rid) := by
  unfold abandonRequest
  split
  · rename_i hr
    exact .unknown hr
  · rename_i r hr
    split
    · rename_i hb
      exact .marked hr hb
    · rename_i hb
      have := AbandonEnds.removed hr (Bool.eq_false_iff.2 hb)
      rwa [← removeRequest_modifyRequest (f := fun r => { r with waiting := false }) fun _ => rfl] at this

/-- The minimum is restored after a failed ping. -/
def replenished (r : Request C) (s : PoolState C) : PoolState C :=
  if r.requiresPing then ensureMinConnections s else s

/-- A request whose processing is over. -/
def Request.processed (r : Request C) : Request C :=
  { r with inProgress := false, bgProcessing := false, completed := r.completed || r.conn.isSome }

/-- How `post_process_request` leaves the state. -/
inductive PostEnds (s : PoolState C) (rid : Nat) : PoolState C → Prop
  | unknown (hr : s.request? rid = none) : PostEnds s rid s
  | completed {r : Request C} (hr : s.request? rid = some r) (hc : r.conn.isSome = true) (hw : r.waiting = true) :
      PostEnds s rid (s.modifyRequest rid Request.processed)
  | rejected {r : Request C} (hr : s.request? rid = some r) (hc : r.conn.isSome = true) (hw : r.waiting = false) :
      PostEnds s rid (reject (s.removeRequest rid) r.conn)
  | failed {r : Request C} (hr : s.request? rid = some r) (hc : r.conn = none) (hw : r.waiting = true) :
      PostEnds s rid (replenished r (s.modifyRequest rid Request.processed))
  | removed {r : Request C} (hr : s.request? rid = some r) (hc : r.conn = none) (hw : r.waiting = false) :
      PostEnds s rid ((replenished r (s.modifyRequest rid Request.processed)).removeRequest rid)

private theorem modifyRequest_congr {g : Request C → Request C} (hr : s.request? rid = some r) (h : f r = g r) :
    s.modifyRequest rid f = s.modifyRequest rid g := by
  simp only [PoolState.modifyRequest]
  rw [modifyFirst_congr hr h]

theorem postEnds_postProcessRequest (s : PoolState C) (rid : Nat) : PostEnds s rid (postProcessRequest s rid) := by
  have hid : ∀ r : Request C, ({ r with inProgress := false, bgProcessing := false } : Request C).id = r.id :=
    fun _ => rfl
  unfold postProcessRequest
  split
  · rename_i hr
    exact .unknown hr
  · rename_i r hr
    dsimp only
    split
    · rename_i hc
      have heq : (s.modifyRequest rid fun r => { r with inProgress := false, bgProcessing := false }).modifyRequest
          rid (fun r => { r with completed := true }) = s.modifyRequest rid Request.processed := by
        rw [modifyRequest_modifyRequest hid]
        exact modifyRequest_congr hr (by simp [Request.processed, hc])
      rw [heq]
      split
      · rename_i hw
        exact .completed hr hc hw
      · rename_i hw
        have := PostEnds.rejected hr hc (Bool.eq_false_iff.2 hw)
        rwa [← removeRequest_modifyRequest (f := Request.processed) fun _ => rfl] at this
    · rename_i hc
      have hc : r.conn = none := Option.not_isSome_iff_eq_none.1 hc
      have heq : s.modifyRequest rid (fun r => { r with inProgress := false, bgProcessing := false }) =
          s.modifyRequest rid Request.processed :=
        modifyRequest_congr hr (by simp [Request.processed, hc])
      rw [heq]
      split
      · rename_i hw
        exact .failed hr hc hw
      · rename_i hw
        exact .removed hr hc (Bool.eq_false_iff.2 hw)

/-- The connection has been taken out of the slot. -/
def Request.emptied (r : Request C) : Request C := { r with conn := none }

/-- Whether the worker creates a connection for the request. -/
def Request.needsCreate (r : Request C) : Bool := r.isReplacing || r.isExtra || !r.cclassMatches

/-- What the first lock section of `process_request` finds. -/
inductive PickEnds (s : PoolState C) (rid : Nat) : Work C × PoolState C → Prop
  | unknown (hr : s.request? rid = none) : PickEnds s rid (.nothing, s)
  | nothing {r : Request C} (hr : s.request? rid = some r)
      (h : (r.requiresPing = true ∧ r.conn = none) ∨ (r.requiresPing = false ∧ r.needsCreate = false)) :
      PickEnds s rid (.nothing, s)
  | ping {r : Request C} {conn : PooledConn C} (hr : s.request? rid = some r) (hp : r.requiresPing = true)
      (hc : r.conn = some conn) : PickEnds s rid (.ping conn, s.modifyRequest rid Request.emptied)
  | create {r : Request C} (hr : s.request? rid = some r) (hp : r.requiresPing = false) (hn : r.needsCreate = true) :
      PickEnds s rid (.create s.nextConnId r.cclass r.isExtra r.conn,
        { s.modifyRequest rid Request.emptied with nextConnId := s.nextConnId + 1 })

theorem modifyRequest_self (s : PoolState C) (rid : Nat) : (s.modifyRequest rid fun r => r) = s := by
  rw [PoolState.modifyRequest, modifyFirst_id]

private theorem modifyRequest_eq_self (hr : s.request? rid = some r) (h : f r = r) : s.modifyRequest rid f = s := by
  rw [modifyRequest_congr (g := fun r => r) hr h, modifyRequest_self]

theorem pickEnds_pickWork (s : PoolState C) (rid : Nat) : PickEnds s rid (pickWork s rid) := by
  unfold pickWork
  split
  · rename_i hr
    exact .unknown hr
  · rename_i r hr
    split
    · rename_i hp
      split
      · rename_i conn hc
        exact .ping hr hp hc
      · rename_i hc
        have := PickEnds.nothing hr (Or.inl ⟨hp, hc⟩)
        rwa [modifyRequest_eq_self hr (by rw [← hc])]
    · rename_i hp
      have hp : r.requiresPing = false := Bool.eq_false_iff.2 hp
      split
      · rename_i hn
        exact .create hr hp hn
      · rename_i hn
        exact .nothing hr (Or.inr ⟨hp, Bool.eq_false_iff.2 hn⟩)

end OracleThin.Pool
