import OracleThin.Pool.Machine
import OracleThin.Pool.Rules

/-!
# The single edits of a step

A step of the pool runs a lock section, and a lock section is a sequence of single edits: a connection leaves a free
list, a request is changed, the worker moves on.  `Edit` lists them and `edits_step` cuts every step into edits, so
that an invariant of the locked state and the worker is checked edit by edit.
-/

namespace OracleThin.Pool

open Lib

variable {C : Type}

/-! ### The lock sections of a step -/

/-- The answers with which a step outside the worker drains the queued returns first. -/
def Action.drains : Action C → Option (Env C)
  | .acquire env _ => some env
  | .release env _ => some env
  | .dropFromPool env _ => some env
  | .drain env => some env
  | .close env _ _ => some env
  | _ => none

/-- What a step does, apart from the steps of the worker. -/
inductive StepEnds (w : World C) : Action C → World C → Prop
  | acquired (h : enqueueRequest (w.drained env).state opts = (.ok rid, s)) :
      StepEnds w (.acquire env opts) { w.drained env with state := s, acquiring := w.acquiring ++ [rid] }
  | refused (h : enqueueRequest (w.drained env).state opts = (.error e, s)) :
      StepEnds w (.acquire env opts) { w.drained env with state := s }
  | served (h : pollRequestCompletion env w.state rid = (.ok (some connId), s)) :
      StepEnds w (.poll env rid)
        { w with state := s, acquiring := w.acquiring.erase rid, guards := w.guards ++ [connId] }
  | waiting (h : pollRequestCompletion env w.state rid = (.ok none, s)) :
      StepEnds w (.poll env rid) { w with state := s }
  | failed (h : pollRequestCompletion env w.state rid = (.error e, s)) :
      StepEnds w (.poll env rid)
        { w with state := s, acquiring := w.acquiring.erase rid, failing := w.failing ++ [rid] }
  | abandoned : StepEnds w (.abandon rid) (abandonStep rid w)
  | released (h : returnConnectionImpl env (w.drained env).state connId = (.ok (), s)) :
      StepEnds w (.release env connId) { w.drained env with state := s, guards := w.guards.erase connId }
  | rearmed (hg : connId ∈ w.guards) (h : returnConnectionImpl env (w.drained env).state connId = (.error e, s)) :
      StepEnds w (.release env connId)
        { w.drained env with state := s, guards := w.guards.erase connId, dropReturns := [connId] }
  | dropped : StepEnds w (.dropFromPool env connId) (dropStep env connId w)
  | queued (hg : connId ∈ w.guards) : StepEnds w (.guardDrop connId)
      { w with guards := w.guards.erase connId, dropReturns := w.dropReturns ++ [connId] }
  | drained : StepEnds w (.drain env) (w.drained env)
  | configured : StepEnds w (.configure setting) { w with state := setting.apply w.state }
  | closed (h : requestWorkerShutdown (w.drained env).state force = (.ok (), s)) :
      StepEnds w (.close env force cancelled)
      { w.drained env with
        state := s, reaperStop := true, handle := false, joining := w.joining || (w.handle && !cancelled) }
  | unclosed (h : requestWorkerShutdown (w.drained env).state force = (.error e, s)) :
      StepEnds w (.close env force cancelled) { w.drained env with state := s }
  | returned (hw : w.worker = .exited) : StepEnds w .closeReturn { w with joining := false, closeFinished := true }
  | worked (h : workStep answers w = some w') : StepEnds w (.work answers) w'

theorem stepEnds_step {w w' : World C} {a : Action C} (hs : step w a = some w') : StepEnds w a w' := by
  cases a with
  | acquire env opts =>
    cases hs
    unfold acquireStep
    dsimp only
    split
    · exact .acquired ‹_›
    · exact .refused ‹_›
  | poll env rid =>
    obtain ⟨-, hs⟩ := Option.ite_none_right_eq_some.1 hs
    cases hs
    unfold pollStep
    split
    · exact .served ‹_›
    · exact .waiting ‹_›
    · exact .failed ‹_›
  | abandon | dropFromPool =>
    obtain ⟨-, hs⟩ := Option.ite_none_right_eq_some.1 hs
    cases hs
    constructor
  | release env connId =>
    obtain ⟨hg, hs⟩ := Option.ite_none_right_eq_some.1 hs
    cases hs
    unfold releaseStep
    dsimp only
    split
    · exact .released ‹_›
    · exact .rearmed hg ‹_›
  | guardDrop connId =>
    obtain ⟨hg, hs⟩ := Option.ite_none_right_eq_some.1 hs
    cases hs
    exact .queued hg
  | drain | configure => cases hs; constructor
  | close env force cancelled =>
    cases hs
    unfold closeStep
    dsimp only
    split
    · exact .closed ‹_›
    · exact .unclosed ‹_›
  | closeReturn =>
    rw [step] at hs
    split at hs <;> cases hs
    exact .returned ‹_›
  | work answers => exact .worked hs

/-! ### What a step may do -/

/-- The worker has a connection in hand to ping it. -/
def Worker.pings : Worker C → Bool
  | .pinging _ _ => true
  | .pinged _ _ => true
  | _ => false

/-- The request whose acquirer takes the step. -/
def Action.acquirer : Action C → Option Nat
  | .poll _ requestId => some requestId
  | .abandon requestId => some requestId
  | _ => none

/-- The connection that a step takes from a request that will not be completed, to put it back into a free list. -/
def givenUp (w : World C) : Action C → Option (PooledConn C)
  | .abandon rid => (w.state.request? rid).bind fun r => if r.bgProcessing then none else r.conn
  | .work _ =>
    match w.worker with
    | .postProcess rid => (w.state.request? rid).bind fun r => if r.waiting then none else r.conn
    | _ => none
  | _ => none

/-- The ids of the connections that a step may take from their users. -/
def recalls (w : World C) : Action C → List Nat
  | .release _ connId => w.dropReturns ++ [connId]
  | .dropFromPool _ connId => w.dropReturns ++ [connId]
  | .work _ =>
    match w.worker with
    | .top _ => w.dropReturns
    | _ => []
  | a => if a.drains.isSome then w.dropReturns else []

/-- Where the worker stands, if the step is one of its own. -/
def Action.stage (w : World C) : Action C → Option (Worker C)
  | .work _ => some w.worker
  | _ => none

/-- The step polls the request `r`, which has to look for a connection. -/
structure Sought (w : World C) (a : Action C) (wk : Worker C) (r : Request C) : Prop where
  fresh : Fresh w.state r
  poll : ∃ env, a = .poll env r.id
  worker : wk = w.worker

/-- The step polls `r` with what `env` says of the connections, and the scan of the free lists has come to the state
`s`. -/
structure Scanning (w : World C) (a : Action C) (wk : Worker C) (env : Env C) (r : Request C) (s : PoolState C) : Prop
    extends Sought w a wk r where
  polled : a = .poll env r.id
  drops : Drops env r w.state s

/-- The step drains the queued returns with what `env` says of the connections, and has come to the state `s`. -/
structure Draining (w : World C) (a : Action C) (wk : Worker C) (env : Env C) (s : PoolState C) : Prop where
  drains : a.drains = some env
  worker : wk = w.worker
  busy : s.busy ⊆ w.state.busy
  config : s.config = w.state.config

theorem Draining.returned (h : Draining w a wk env s)
    (hend : ReturnEnds env { s with busy := s.busy.eraseP (·.id == connId) } conn t) : Draining w a wk env t := by
  have hbusy : s.busy.eraseP (·.id == connId) ⊆ w.state.busy := fun _ hc => h.busy (List.mem_of_mem_eraseP hc)
  cases hend with
  | dropped => exact ⟨h.drains, h.worker, by rwa [dropConn_busy], by rw [dropConn_config]; exact h.config⟩
  | given | freed => exact ⟨h.drains, h.worker, hbusy, h.config⟩

theorem Draining.drained (h : Draining w a wk env s) (queue : List Nat) :
    Draining w a wk env (drainDropReturns env s queue) :=
  drainDropReturns_induct h fun _ _ _ _ ht _ _ _ hend => ht.returned hend

/-! ### Edits -/

/-- One edit of the locked state `s` by a party, or of the state and the worker by the worker, in the step `a` of the
world `w`.  `L` says which requests have an acquirer that acts on them. -/
inductive Edit (L : Nat → Prop) (w : World C) (a : Action C) (s : PoolState C) :
    Worker C → PoolState C × Worker C → Prop
  | drop (hl : Leaves s conn u) (hp : wk.pings = true → ∃ env r, Scanning w a wk env r s ∧ Candidate r s conn ∧
      usable env s.config conn = false) : Edit L w a s wk (dropConn u conn, wk)
  | attach (ping : Bool) (hr : Fresh s r) (hl : Leaves s conn u) (hc : Candidate r s conn) (hs : Sought w a wk r)
      (hw : Candidate r w.state conn) : Edit L w a s wk (u.modifyRequest r.id (Request.attach ping conn), wk)
  | victim (hr : Fresh s r) (hl : Leaves s conn u) (hs : Sought w a wk r) :
      Edit L w a s wk ((pushToDrop u conn).modifyRequest r.id (Request.enlist true false), wk)
  | enlist (extra : Bool) (hr : Fresh s r) (hs : Sought w a wk r) (hf : extra = true → s.forceGet = true) :
      Edit L w a s wk (s.modifyRequest r.id (Request.enlist false extra), wk)
  | schedule (n : Nat) (ho : s.isOpen = true) (hlt : reservedOpenCount s < k) (hle : reservedOpenCount s + n ≤ k)
      (hk : k = s.config.min ∨ k = s.config.max) (hp : wk.pings = true → ∃ env r, Scanning w a wk env r s ∧
        n ≤ growth (s.modifyRequest r.id Request.unping) r.wantsNew r.cclass r.cclassMatches) :
      Edit L w a s wk (scheduleOpenEffects s n, wk)
  | finish {r : Request C} (hL : L rid) (hr : s.request? rid = some r) (hc : r.completed = true)
      (hconn : r.conn = some conn) :
      Edit L w a s wk ({ s.removeRequest rid with busy := s.busy ++ [{ conn with everAcquired := true }] }, wk)
  | lose {r : Request C} (hL : L rid) (hr : s.request? rid = some r) (hc : r.completed = true)
      (hconn : r.conn = none) :
      Edit L w a s wk (s.removeRequest rid, wk)
  | abandon {r : Request C} (hL : L rid) (hr : s.request? rid = some r) (hb : r.bgProcessing = true)
      (hs : s = w.state)
      (hw : wk = w.worker) (ha : s.isOpen = false ∨ a = .abandon rid) :
      Edit L w a s wk (s.modifyRequest rid fun r => { r with waiting := false }, wk)
  /-- The acquirer is told about an error while the request is still queued. -/
  | fail {r : Request C} (hL : L rid) (hr : s.request? rid = some r) (he : r.error.isSome = true)
      (hb : r.bgProcessing = true) :
      Edit L w a s wk (s.modifyRequest rid fun r => { r with error := none, waiting := false }, wk)
  | giveUp {r : Request C} (hL : L rid) (hr : s.request? rid = some r) (hb : r.bgProcessing = false)
      (hG : s.isOpen = true →
      r.error.isSome = true ∨ r.completed = false ∨ ∀ conn, r.conn = some conn → conn ∈ givenUp w a) :
      Edit L w a s wk (reject (s.removeRequest rid) r.conn, wk)
  | back (hc : s.busy.find? (·.id == connId) = some conn)
      (hend : ReturnEnds env { s with busy := s.busy.eraseP (·.id == connId) } conn t) (hi : connId ∈ recalls w a)
      (hp : wk.pings = true → Draining w a wk env s) : Edit L w a s wk (t, wk)
  | retire (hc : s.busy.find? (·.id == connId) = some conn) (ha : a = .dropFromPool env connId)
      (hp : wk.pings = true → wk = w.worker) :
      Edit L w a s wk (dropConn { s with busy := s.busy.eraseP (·.id == connId) } conn, wk)
  | enqueue (opts : AcquireOptions) : Edit L w a s wk ((enqueueRequest s opts).2, wk)
  | configure (setting : Setting) (ha : a = .configure setting) : Edit L w a s wk (setting.apply s, wk)
  | shutdown (ho : s.isOpen = true) : Edit L w a s wk (requestWorkerShutdownLocked s, wk)
  | pick (h : Picks s r) :
      Edit L w a s (.top none) (s.modifyRequest r.id fun r => { r with inProgress := r.waiting }, .top (some r.id))
  | start (ho : s.isOpen = true) : Edit L w a s (.top (some rid)) (s, .processing rid)
  | skip (h : current = none ∨ s.isOpen = false) : Edit L w a s (.top current) (s, .effects)
  | pass (h : PickEnds s rid (.nothing, s)) : Edit L w a s (.processing rid) (s, .postProcess rid)
  | ping {r : Request C} (hr : s.request? rid = some r) (hp : r.requiresPing = true) (hc : r.conn = some conn) :
      Edit L w a s (.processing rid) (s.modifyRequest rid Request.emptied, .pinging rid conn)
  | create {r : Request C} (hr : s.request? rid = some r) (hp : r.requiresPing = false) (hn : r.needsCreate = true) :
      Edit L w a s (.processing rid) ({ s.modifyRequest rid Request.emptied with nextConnId := s.nextConnId + 1 },
        .creating rid s.nextConnId r.cclass r.isExtra r.conn)
  | healthy : Edit L w a s (.pinging rid conn) (s, .pinged rid conn)
  | dead (hw : a.stage w = some (.pinging rid conn)) : Edit L w a s (.pinging rid conn) (s, .postProcess rid)
  | restore (hw : a.stage w = some (.pinged rid conn)) :
      Edit L w a s (.pinged rid conn) (restorePinged s rid conn, .postProcess rid)
  | created (answers : Answers C) (hw : a.stage w = some (.creating rid connId cclass isExtra replaced)) :
      Edit L w a s (.creating rid connId cclass isExtra replaced)
        (s, .createdFor rid replaced (wrapCreated answers connId cclass isExtra))
  | replace : Edit L w a s (.createdFor rid (some old) result) (dropConn s old, .createdFor rid none result)
  | strand {conn : PooledConn C} (hr : s.request? rid = none) :
      Edit L w a s (.createdFor rid none (.ok conn))
        (pushToDrop s { conn with isPoolExtra := false }, .postProcess rid)
  | deliver {r : Request C} (hr : s.request? rid = some r) : Edit L w a s (.createdFor rid none (.ok conn))
      (s.modifyRequest rid fun r => { r with conn := some conn }, .postProcess rid)
  | report : Edit L w a s (.createdFor rid none (.error error))
      (s.modifyRequest rid fun r => { r with error := some error }, .postProcess rid)
  | gone (hr : s.request? rid = none) : Edit L w a s (.postProcess rid) (s, .top none)
  | processed {r : Request C} (hr : s.request? rid = some r) (hw : r.waiting = true) :
      Edit L w a s (.postProcess rid) (s.modifyRequest rid Request.processed, .top none)
  | reject {r : Request C} (hr : s.request? rid = some r) (hw : r.waiting = false)
      (hG : ∀ conn, r.conn = some conn → conn ∈ givenUp w a) :
      Edit L w a s (.postProcess rid) (reject (s.removeRequest rid) r.conn, .top none)
  | effect (h : (takeOpenEffect s).inFlightOpenEffects.getLast? = some connId) :
      Edit L w a s .effects (takeOpenEffect s, .opening connId s.config.creationCclass)
  | settle : Edit L w a s .effects (s, .dropping)
  | opened (answers : Answers C) (hw : a.stage w = some (.opening connId cclass)) :
      Edit L w a s (.opening connId cclass) (s, .opened connId (wrapCreated answers connId cclass false))
  | grow : Edit L w a s (.opened connId result) (postCreateConn s connId result, .top none)
  | close (hl : s.toDrop.getLast? = some conn) :
      Edit L w a s .dropping ({ s with toDrop := s.toDrop.dropLast }, .closing conn)
  | clean : Edit L w a s .dropping (s, .sweeping)
  | closed (hw : a.stage w = some (.closing conn)) : Edit L w a s (.closing conn) (s, .top none)
  | rest : Edit L w a s .sweeping (s, .top none)
  | exit : Edit L w a s .sweeping (s, .exited)

/-- A sequence of edits in the step `a` of the world `w`. -/
def Edits (L : Nat → Prop) (w : World C) (a : Action C) : PoolState C × Worker C → PoolState C × Worker C → Prop :=
  Relation.ReflTransGen fun x y => Edit L w a x.1 x.2 y

section Sections

variable {L : Nat → Prop} {w : World C} {a : Action C} {env : Env C} {s t u v : PoolState C} {wk wk' : Worker C}
    {rid : Nat}
  {r : Request C} {x : PoolState C × Worker C}

theorem Edits.refl : Edits L w a (s, wk) (s, wk) := Relation.ReflTransGen.refl

theorem Edits.tail (h : Edits L w a x (t, wk)) (he : Edit L w a t wk (u, wk')) :
    Edits L w a x (u, wk') :=
  Relation.ReflTransGen.tail h he

theorem Edits.trans {y z : PoolState C × Worker C} (h : Edits L w a x y) (h' : Edits L w a y z) : Edits L w a x z :=
  Relation.ReflTransGen.trans h h'

theorem Edit.edits (h : Edit L w a s wk (t, wk')) : Edits L w a (s, wk) (t, wk') := Edits.refl.tail h

/-- What every edit keeps is kept by a sequence of edits. -/
theorem Edits.induct {P : PoolState C → Worker C → Prop} (h : Edits L w a (s, wk) (t, wk')) (hs : P s wk)
    (hedit : ∀ s wk t wk', P s wk → Edit L w a s wk (t, wk') → P t wk') : P t wk' := by
  have key : ∀ x, Edits L w a (s, wk) x → P x.1 x.2 := by
    intro x hx
    induction hx with
    | refl => exact hs
    | tail _ he ih => exact hedit _ _ _ _ ih he
  exact key _ h

theorem Scanning.edits (h : Scanning w a wk env r t) : Edits L w a (w.state, wk) (t, wk) :=
  h.drops.induct (P := fun t => Edits L w a (w.state, wk) (t, wk)) .refl fun _ _ _ hd ht hl hc hdead =>
    ht.tail (.drop hl fun _ => ⟨env, r, ⟨h.toSought, h.polled, hd⟩, hc, hdead⟩)

/-! ### The acquiring side -/

theorem Fresh.drops (hr : Fresh s r) (hd : Drops env r s t) : Fresh t r :=
  ⟨hd.isOpen.trans hr.isOpen, (hd.request? _).trans hr.found, hr.error, hr.completed, hr.bgProcessing⟩

theorem QueueEnds.edits {b : Bool} (hscan : Scanning w a wk env r s) (hr : Fresh s r)
    (hq : QueueEnds r s (.ok b, t)) :
    Edits L w a (s, wk) (t, wk) := by
  have hs := hscan.toSought
  cases hq with
  | victim _ hl => exact (Edit.victim hr hl hs).edits
  | extra hf => exact (Edit.enlist true hr hs fun _ => hf).edits
  | waits => exact (Edit.enlist false hr hs nofun).edits
  | grows hspare =>
    have hgrow : growth (s.modifyRequest r.id Request.unping) r.wantsNew r.cclass r.cclassMatches ≤
        s.config.max - reservedOpenCount s := by
      rw [← reservedOpenCount_unping hr.found hr.bgProcessing]
      exact Nat.min_le_right _ _
    refine (Edit.schedule _ hr.isOpen hspare (by omega) (Or.inr rfl) fun _ => ⟨env, r, hscan, le_rfl⟩).edits.tail ?_
    exact .enlist false ⟨hr.isOpen, hr.found, hr.error, hr.completed, hr.bgProcessing⟩ hs nofun

theorem FulfillEnds.edits {b : Bool} (h : FulfillEnds env w.state rid (.ok b, t)) :
    Edits L w (.poll env rid) (w.state, w.worker) (t, w.worker) := by
  have hscan : ∀ {r t}, Fresh w.state r → r.id = rid → Drops env r w.state t →
      Scanning w (.poll env rid) w.worker env r t := fun hr hid hd =>
    ⟨⟨hr, ⟨env, by rw [hid]⟩, rfl⟩, by rw [hid], hd⟩
  cases h with
  | completed => exact .refl
  | queued => exact .refl
  | stopped hr hid hd => exact (hscan hr hid hd).edits
  | attached hr hid hd hl hc =>
    have hs := hscan hr hid hd
    exact hs.edits.tail (.attach _ (hr.drops hd) hl hc hs.toSought (hd.candidate hc))
  | enlisted hr hid hd _ hq =>
    have hs := hscan hr hid hd
    exact hs.edits.trans (hq.edits hs (hr.drops hd))

private theorem edits_abandonRequest (hL : L rid) (ha : w.state.isOpen = false ∨ a = .abandon rid)
    (hG : w.state.isOpen = true → ∀ r conn, w.state.request? rid = some r → r.bgProcessing = false →
      r.conn = some conn → conn ∈ givenUp w a) :
    Edits L w a (w.state, w.worker) (abandonRequest w.state rid, w.worker) := by
  have h := abandonEnds_abandonRequest w.state rid
  generalize abandonRequest w.state rid = t at h ⊢
  cases h with
  | unknown => exact .refl
  | marked hr hb => exact (Edit.abandon hL hr hb rfl rfl ha).edits
  | removed hr hb => exact (Edit.giveUp hL hr hb fun ho => Or.inr (Or.inr fun conn => hG ho _ conn hr hb)).edits

private theorem abandonRequest_modifyRequest {f : Request C → Request C} (hid : ∀ r, (f r).id = r.id)
    (hr : s.request? rid = some r) : abandonRequest (s.modifyRequest rid f) rid =
      if (f r).bgProcessing then s.modifyRequest rid fun r => { f r with waiting := false }
      else reject (s.removeRequest rid) (f r).conn := by
  rw [abandonRequest, request?_modifyRequest hid hr]
  dsimp only
  split
  · exact modifyRequest_modifyRequest hid
  · rw [removeRequest_modifyRequest (f := fun r => { r with waiting := false }) fun _ => rfl,
      removeRequest_modifyRequest hid]

private theorem edits_pollRequestCompletion (env : Env C) (hL : L rid) :
    Edits L w (.poll env rid) (w.state, w.worker) ((pollRequestCompletion env w.state rid).2, w.worker) := by
  have h := pollEnds_pollRequestCompletion env w.state rid
  generalize pollRequestCompletion env w.state rid = out at h ⊢
  cases h with
  | finished hf hr hc hconn => exact hf.edits.tail (.finish hL hr hc hconn)
  | lost hf hr hc hconn => exact hf.edits.tail (.lose hL hr hc hconn)
  | waiting hf => exact hf.edits
  | failed hf =>
    cases hf with
    | refused hno =>
      rcases hno with hclosed | hnone
      · exact edits_abandonRequest hL (Or.inl hclosed) fun ho => absurd (hclosed.symm.trans ho) nofun
      · rw [abandonRequest, hnone]; exact .refl
    | @failed r err hr he =>
      have he' : r.error.isSome = true := by rw [he]; rfl
      rw [abandonRequest_modifyRequest (f := fun r => { r with error := none }) (fun _ => rfl) hr]
      cases hb : r.bgProcessing with
      | true => exact (Edit.fail hL hr he' hb).edits
      | false => exact (Edit.giveUp hL hr hb fun _ => Or.inl he').edits
    | @enlisted r _ _ hr hid hd _ hq =>
      cases hq with
      | refused =>
        subst hid
        have hrt := (hr.drops hd).found
        rw [abandonRequest_modifyRequest (f := Request.unping) (fun _ => rfl) hrt]
        rw [if_neg (by rw [Request.unping, hr.bgProcessing]; simp)]
        have hs : Scanning w (.poll env r.id) w.worker env r _ := ⟨⟨hr, ⟨env, rfl⟩, rfl⟩, rfl, hd⟩
        refine hs.edits.tail ?_
        exact .giveUp (r := r) hL hrt hr.bgProcessing fun _ => Or.inr (Or.inl hr.completed)

/-! ### Returning a connection and closing -/

theorem edits_drainDropReturns (env : Env C) (s : PoolState C) {queue : List Nat} (hq : ∀ i ∈ queue, i ∈ recalls w a)
    (hp : wk.pings = true → Draining w a wk env s) : Edits L w a (s, wk) (drainDropReturns env s queue, wk) :=
  (drainDropReturns_induct (P := fun t => Edits L w a (s, wk) (t, wk) ∧ (wk.pings = true → Draining w a wk env t))
    ⟨.refl, hp⟩ fun _ _ connId _ ht _ hi hc hend =>
      ⟨ht.1.tail (.back hc hend (hq connId hi) ht.2), fun h => (ht.2 h).returned hend⟩).1

private theorem edits_returnConnectionImpl (env : Env C) (s : PoolState C) {connId : Nat} (hi : connId ∈ recalls w a)
    (hp : wk.pings = true → Draining w a wk env s) :
    Edits L w a (s, wk) ((returnConnectionImpl env s connId).2, wk) := by
  unfold returnConnectionImpl
  split
  · exact .refl
  · split
    · exact .refl
    · rename_i hret
      obtain ⟨conn, hc, hend⟩ := returnBusy_eq_some hret
      exact (Edit.back hc hend hi hp).edits

private theorem edits_dropConnectionImpl (s : PoolState C) {connId : Nat} (ha : a = .dropFromPool env connId)
    (hp : wk.pings = true → wk = w.worker) : Edits L w a (s, wk) (dropConnectionImpl s connId, wk) := by
  unfold dropConnectionImpl
  split
  · exact .refl
  · split
    · exact .refl
    · rename_i hc
      exact (Edit.retire hc ha hp).edits

private theorem edits_requestWorkerShutdown (s : PoolState C) (force : Bool) :
    Edits L w a (s, wk) ((requestWorkerShutdown s force).2, wk) := by
  unfold requestWorkerShutdown
  split
  · exact .refl
  · rename_i ho
    split
    · exact .refl
    · exact (Edit.shutdown (by simpa using ho)).edits

/-! ### The worker -/

theorem edits_getNextRequest (s : PoolState C) :
    Edits L w a (s, .top none) ((getNextRequest s).2, .top (getNextRequest s).1) := by
  rcases getNextRequest_cases s with ⟨-, heq⟩ | ⟨r, hpick, heq⟩
  · rw [heq]; exact .refl
  · rw [heq]; exact (Edit.pick hpick).edits

private theorem edits_integrateCreated (s : PoolState C) (rid : Nat) (replaced : Option (PooledConn C))
    (result : Except String (PooledConn C)) :
    Edits L w a (s, .createdFor rid replaced result) (integrateCreated s rid replaced result, .postProcess rid) := by
  have hold : Edits L w a (s, .createdFor rid replaced result)
    (dropReplaced s replaced, .createdFor rid none result) := by
    cases replaced with
    | none => exact .refl
    | some old => exact Edit.replace.edits
  refine hold.trans ?_
  unfold integrateCreated
  generalize dropReplaced s replaced = t
  dsimp only
  cases hr : t.request? rid with
  | none =>
    cases result with
    | ok conn => exact (Edit.strand hr).edits
    | error error =>
      have h : Edits L w a (t, .createdFor rid none (.error error)) (t.modifyRequest rid _, .postProcess rid) :=
        Edit.report.edits
      rwa [PoolState.modifyRequest, modifyFirst_of_find?_eq_none hr] at h
  | some r =>
    cases result with
    | ok conn => exact (Edit.deliver hr).edits
    | error error => exact Edit.report.edits

/-- Connections are scheduled up to the minimum, counted before a request was removed. -/
theorem Edits.schedule (h : Edits L w a x (u, .top none))
    (hcond : (v.isOpen && decide (reservedOpenCount v < v.config.min)) = true)
    (ho : u.isOpen = v.isOpen) (hc : u.config = v.config) (hle : reservedOpenCount u ≤ reservedOpenCount v) :
    Edits L w a x (scheduleOpenEffects u (v.config.min - reservedOpenCount v), .top none) := by
  rw [Bool.and_eq_true, decide_eq_true_eq] at hcond
  exact h.tail (.schedule _ (ho.trans hcond.1) (by omega) (by omega) (Or.inl (congrArg PoolConfig.min hc.symm)) nofun)

private theorem reservedOpenCount_removeRequest_le (s : PoolState C) (rid : Nat) :
    reservedOpenCount (s.removeRequest rid) ≤ reservedOpenCount s := by
  have hconn := (List.eraseP_sublist (l := s.requests) (p := (·.id == rid))).countP_le (p := (·.conn.isSome))
  have hopen := (List.eraseP_sublist (l := s.requests) (p := (·.id == rid))).countP_le (p := requestIsOpening)
  have hmono : ∀ {m n : Nat}, m ≤ n → saturatingU32 m ≤ saturatingU32 n := fun h => min_le_min_right u32Max h
  exact hmono (Nat.add_le_add (hmono (Nat.add_le_add_left hconn _)) (hmono (Nat.add_le_add_left hopen _)))

private theorem edits_postProcessRequest
    (hG : ∀ r conn, s.request? rid = some r → r.waiting = false → r.conn = some conn →
    conn ∈ givenUp w a) : Edits L w a (s, .postProcess rid) (postProcessRequest s rid, .top none) := by
  have h := postEnds_postProcessRequest s rid
  generalize postProcessRequest s rid = t at h ⊢
  cases h with
  | unknown hr => exact (Edit.gone hr).edits
  | completed hr _ hw => exact (Edit.processed hr hw).edits
  | rejected hr _ hw => exact (Edit.reject hr hw fun conn => hG _ conn hr hw).edits
  | failed hr _ hw =>
    unfold replenished ensureMinConnections
    repeat' split
    · rename_i hcond
      exact (Edit.processed hr hw).edits.schedule hcond rfl rfl (Nat.le_refl _)
    · exact (Edit.processed hr hw).edits
    · exact (Edit.processed hr hw).edits
  | @removed r hr hc hw =>
    have hrem : Edits L w a (s, .postProcess rid)
      ((s.modifyRequest rid Request.processed).removeRequest rid, .top none) := by
      have h := (Edit.reject (L := L) hr hw fun conn => hG _ conn hr hw).edits
      rwa [hc, ← removeRequest_modifyRequest (f := Request.processed) fun _ => rfl] at h
    unfold replenished ensureMinConnections
    repeat' split
    · rename_i hcond
      exact hrem.schedule hcond rfl rfl (reservedOpenCount_removeRequest_le _ _)
    · exact hrem
    · exact hrem

private theorem edits_workEffects (w : World C) (hw : w.worker = .effects) :
    Edits L w a (w.state, w.worker) ((workEffects w).state, (workEffects w).worker) := by
  rw [hw]
  unfold workEffects
  split
  · dsimp only
    split
    · rename_i hlast
      have hcfg : (takeOpenEffect w.state).config = w.state.config := by
        unfold takeOpenEffect
        split <;> rfl
      rw [hcfg]
      exact (Edit.effect hlast).edits
    · rename_i hlast
      have hsame : takeOpenEffect w.state = w.state := by
        unfold takeOpenEffect at hlast ⊢
        split
        · rfl
        · rename_i hopen
          rw [hopen] at hlast
          simp at hlast
      rw [hsame]
      exact Edit.settle.edits
  · exact Edit.settle.edits

end Sections

/-! ### Steps -/

variable {w w' : World C} {a : Action C}

private theorem mem_recalls_of_drains {env : Env C} {i : Nat} (h : a.drains = some env) (hi : i ∈ w.dropReturns) :
    i ∈ recalls w a := by
  cases a <;> simp_all [recalls, Action.drains]

private theorem edits_workStep {L : Nat → Prop} {answers : Answers C} (hs : workStep answers w = some w') :
    Edits L w (.work answers) (w.state, w.worker) (w'.state, w'.worker) := by
  have hstage : ∀ {wk}, w.worker = wk → (Action.work answers).stage w = some wk := fun h => congrArg some h
  unfold workStep at hs
  cases hw : w.worker <;> rw [hw] at hs
  case top current =>
    cases hs
    have hd : Edits L w (.work answers) (w.state, .top current) ((w.drained answers.env).state, .top current) :=
      edits_drainDropReturns answers.env w.state (fun _ hi => by rw [recalls, hw]; exact hi) nofun
    unfold workTop
    dsimp only
    generalize hpick : (if current.isNone && (w.drained answers.env).state.isOpen then _ else _) = picked
    have ht : Edits L w (.work answers) (w.state, .top current) (picked.2, .top picked.1) := by
      rw [← hpick]
      split
      · rename_i hopen
        rw [Bool.and_eq_true, Option.isNone_iff_eq_none] at hopen
        obtain ⟨rfl, -⟩ := hopen
        exact hd.trans (edits_getNextRequest _)
      · exact hd
    obtain ⟨current', t⟩ := picked
    cases current' with
    | none => exact ht.tail (.skip (Or.inl rfl))
    | some rid =>
      dsimp only
      split
      · exact ht.tail (.start ‹_›)
      · exact ht.tail (.skip (Or.inr (Bool.eq_false_iff.2 ‹_›)))
  case processing rid =>
    cases hs
    have hend := pickEnds_pickWork w.state rid
    unfold workProcess
    generalize pickWork w.state rid = out at hend ⊢
    cases hend with
    | unknown hr => exact (Edit.pass (.unknown hr)).edits
    | nothing hr h => exact (Edit.pass (.nothing hr h)).edits
    | ping hr hp hc => exact (Edit.ping hr hp hc).edits
    | create hr hp hn => exact (Edit.create hr hp hn).edits
  case pinging rid conn =>
    dsimp only at hs
    split at hs
    · cases hs; exact Edit.healthy.edits
    · cases hs; exact (Edit.dead (hstage hw)).edits
  case pinged rid conn => cases hs; exact (Edit.restore (hstage hw)).edits
  case creating rid connId cclass isExtra replaced => cases hs; exact (Edit.created answers (hstage hw)).edits
  case createdFor rid replaced result => cases hs; exact edits_integrateCreated _ rid replaced result
  case postProcess rid =>
    cases hs
    refine (edits_postProcessRequest fun r conn hr hwait hc => ?_).trans (edits_getNextRequest _)
    simp [givenUp, hw, hr, hwait, hc]
  case effects => cases hs; rw [← hw]; exact edits_workEffects w hw
  case opening connId cclass => cases hs; exact (Edit.opened answers (hstage hw)).edits
  case opened connId result => cases hs; exact Edit.grow.edits
  case dropping =>
    cases hs
    unfold workDrop
    split
    · rename_i hlast
      exact (Edit.close hlast).edits
    · exact Edit.clean.edits
  case closing conn => cases hs; exact (Edit.closed (hstage hw)).edits
  case sweeping =>
    cases hs
    have hsweep : Edits L w (.work answers) (w.state, .sweeping) (sweepIdleTimeout answers.env w.state, .sweeping) :=
      sweepIdleTimeout_induct (P := fun t => Edits L w (.work answers) (w.state, .sweeping) (t, .sweeping)) .refl
        fun _ _ _ ht hl _ _ => ht.tail (.drop hl nofun)
    unfold workSweep
    dsimp only
    split
    · exact hsweep.tail .exit
    · exact hsweep.tail .rest
  case exited => cases hs

/-- Every step is a sequence of edits. -/
theorem edits_step (hs : step w a = some w') :
    Edits (a.acquirer = some ·) w a (w.state, w.worker) (w'.state, w'.worker) := by
  have hback : ∀ env, a.drains = some env → Draining w a w.worker env w.state := fun _ hd =>
    ⟨hd, rfl, List.Subset.refl _, rfl⟩
  have hdrain : ∀ env, a.drains = some env →
      Edits (a.acquirer = some ·) w a (w.state, w.worker) ((w.drained env).state, w.worker) := fun env hd =>
    edits_drainDropReturns env w.state (fun _ => mem_recalls_of_drains hd) fun _ => hback env hd
  cases stepEnds_step hs with
  | @acquired _ opts _ _ h | @refused _ opts _ _ h =>
    have hedits := (hdrain _ rfl).tail (.enqueue opts)
    rwa [h] at hedits
  | @served env rid _ _ h | @waiting env rid _ h | @failed env rid _ _ h =>
    have hedits := edits_pollRequestCompletion (L := (some rid = some ·)) (w := w) env rfl
    rwa [h] at hedits
  | abandoned => exact edits_abandonRequest rfl (Or.inr rfl) fun _ r conn hr hb hc => by simp [givenUp, hr, hb, hc]
  | @released env connId _ h | @rearmed connId env _ _ _ h =>
    have hedits := (hdrain env rfl).trans
      (edits_returnConnectionImpl env _ (List.mem_concat_self (a := connId)) fun _ => (hback env rfl).drained _)
    rwa [h] at hedits
  | dropped => exact (hdrain _ rfl).trans (edits_dropConnectionImpl _ rfl fun _ => rfl)
  | queued | returned => exact .refl
  | drained => exact hdrain _ rfl
  | configured => exact (Edit.configure _ rfl).edits
  | @closed env force _ _ h | @unclosed env force _ _ _ h =>
    have hedits := (hdrain env rfl).trans (edits_requestWorkerShutdown _ force)
    rwa [h] at hedits
  | worked h => exact edits_workStep h

end OracleThin.Pool
