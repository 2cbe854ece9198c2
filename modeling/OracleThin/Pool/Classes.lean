import OracleThin.Lib.Fallible
import OracleThin.Pool.Ownership

/-!
# Connection classes

A request that names a connection class must be given a connection created with that class.  The pool compares the
classes when it looks through the used connections and when a connection comes back, but a connection popped from the
list of new ones is taken to have the class the pool creates its own connections with.  `ClassInv` is what makes this
right: everything in that list has the pool's class, and a request holds a connection of its own class unless the
connection is parked there to be replaced.

The invariant is kept by every step except one that gives up a connection made for another class, which goes back to
the list of new ones (`KeepsClasses`).
-/

namespace OracleThin.Pool

open Lib

variable {C : Type}

/-! ### The invariant -/

/-- The connection is new and of the class the pool creates connections with. -/
def PooledConn.Native (creation : Option String) (conn : PooledConn C) : Prop :=
  conn.cclass = creation ∧ conn.everAcquired = false

/-- What the worker has in hand for its request `r` fits the class of `r`. -/
def Worker.Classed (r : Request C) : Worker C → Prop
  | .pinging _ conn => classMatches r.cclass conn = true
  | .pinged _ conn => classMatches r.cclass conn = true
  | .creating _ _ cclass _ _ => cclass = r.cclass
  | .createdFor _ _ result => ∀ conn, result = .ok conn → conn.cclass = r.cclass
  | .postProcess _ => ∀ conn, r.conn = some conn → classMatches r.cclass conn = true
  | _ => True

/-- What the worker has in hand for growth is of the pool's class. -/
def Worker.Grows (creation : Option String) : Worker C → Prop
  | .opening _ cclass => cclass = creation
  | .opened _ result => ∀ conn, result = .ok conn → conn.Native creation
  | _ => True

structure Request.Classed (creation : Option String) (wk : Worker C) (r : Request C) : Prop where
  /-- The connection in the slot fits, or is parked there until the worker replaces it. -/
  held : ∀ conn, r.conn = some conn → classMatches r.cclass conn = true ∨
    (r.completed = false ∧ r.isReplacing = true ∧ (r.requiresPing = true → r.bgProcessing = false))
  fresh : ∀ conn, r.conn = some conn → r.completed = false → r.bgProcessing = false → conn.Native creation
  worker : wk.request = some r.id → wk.Classed r

namespace Request.Classed

variable {isOpen : Bool} {creation : Option String} {wk wk' : Worker C} {r : Request C} {conn : PooledConn C}

theorem of_matches (hconn : r.conn = some conn) (hm : classMatches r.cclass conn = true)
    (hdone : r.completed = true ∨ r.bgProcessing = true) (hw : wk.request = some r.id → wk.Classed r) :
    r.Classed creation wk := by
  refine ⟨fun c hc => ?_, fun c _ hc hb => ?_, hw⟩
  · cases hconn.symm.trans hc
    exact Or.inl hm
  · rcases hdone with h | h
    · rw [hc] at h; cases h
    · rw [hb] at h; cases h

theorem of_conn_eq_none (hconn : r.conn = none) (hw : wk.request = some r.id → wk.Classed r) :
    r.Classed creation wk := by
  refine ⟨fun c hc => ?_, fun c hc => ?_, hw⟩
  · rw [hconn] at hc; cases hc
  · rw [hconn] at hc; cases hc

theorem attach (hm : classMatches r.cclass conn = true) (hown : wk.request ≠ some r.id) (ping : Bool) :
    (r.attach ping conn).Classed creation wk := by
  cases ping with
  | true => exact of_matches (r := r.attach true conn) rfl hm (Or.inr rfl) fun hw => absurd hw hown
  | false => exact of_matches (r := r.attach false conn) rfl hm (Or.inl rfl) fun hw => absurd hw hown

theorem enlist (h : r.Classed creation wk) (hown : wk.request ≠ some r.id) (replacing extra : Bool) :
    (r.enlist replacing extra).Classed creation wk := by
  refine ⟨fun c hc => ?_, fun c _ _ hb => absurd hb nofun, fun hw => absurd hw hown⟩
  rcases h.held c hc with hm | ⟨-, hrep, -⟩
  · exact Or.inl hm
  · exact Or.inr ⟨rfl, by simp [Request.enlist, hrep], fun hp => absurd hp nofun⟩

/-- A connection made for growth is handed over, or parked if its class does not fit. -/
theorem takeCreated (hinv : RequestInv isOpen creation wk r) (hun : r.Unserved) (hn : conn.Native creation) :
    (r.takeCreated conn).Classed creation wk := by
  have hown := hinv.not_owned_of_waiting hun.inProgress hun.waiting
  unfold Request.takeCreated
  split
  · rename_i hm
    exact of_matches (r := r.complete conn) rfl hm (Or.inl rfl) fun hw => absurd hw hown
  · refine ⟨fun c _ => Or.inr ⟨hun.completed, rfl, fun hp => ?_⟩, fun c hc _ _ => ?_, fun hw => absurd hw hown⟩
    · -- a queued request that awaits a ping holds its connection
      by_contra hb
      rcases hinv.ping (by simpa using hb) hp hun.conn with h | h
      · rw [hun.inProgress] at h; cases h
      · rw [hun.waiting] at h; cases h
    · cases hc
      exact hn

theorem of_worker (h : r.Classed creation wk) (hw : wk'.request = some r.id → wk'.Classed r) :
    r.Classed creation wk' :=
  ⟨h.held, h.fresh, hw⟩

end Request.Classed

/-- The classes in an open pool. -/
structure ClassInv (s : PoolState C) (wk : Worker C) : Prop where
  freeNew : s.isOpen = true → ∀ conn ∈ s.freeNew, conn.cclass = s.config.creationCclass
  requests : s.isOpen = true → ∀ r ∈ s.requests, r.Classed s.config.creationCclass wk
  grows : s.isOpen = true → wk.Grows s.config.creationCclass

namespace ClassInv

variable {env : Env C} {s t u : PoolState C} {wk wk' : Worker C} {rid : Nat} {r : Request C} {conn : PooledConn C}

theorem of_sub (h : ClassInv s wk) (hreq : t.requests = s.requests) (hopen : t.isOpen = true → s.isOpen = true)
    (hconf : t.config.creationCclass = s.config.creationCclass) (hnew : ∀ c ∈ t.freeNew, c ∈ s.freeNew) :
    ClassInv t wk where
  freeNew ho c hc := by rw [hconf]; exact h.freeNew (hopen ho) c (hnew c hc)
  requests ho := by rw [hreq, hconf]; exact h.requests (hopen ho)
  grows ho := by rw [hconf]; exact h.grows (hopen ho)

variable {f : Request C → Request C}

section

variable (h : ClassInv s wk)

include h

theorem modifyFirst {p : Request C → Bool}
    (hf : s.isOpen = true → ∀ r, s.requests.find? p = some r → r.Classed s.config.creationCclass wk →
      (f r).Classed s.config.creationCclass wk) :
    ClassInv { s with requests := Lib.modifyFirst p f s.requests } wk where
  freeNew := h.freeNew
  requests ho r hr := by
    rcases mem_modifyFirst hr with hr | ⟨r', hr', rfl⟩
    · exact h.requests ho r hr
    · exact hf ho r' hr' (h.requests ho r' (List.mem_of_find?_eq_some hr'))
  grows := h.grows

theorem modifyRequest (hr : s.request? rid = some r)
    (hf : s.isOpen = true → r.Classed s.config.creationCclass wk → (f r).Classed s.config.creationCclass wk) :
    ClassInv (s.modifyRequest rid f) wk :=
  h.modifyFirst fun ho r' hr' hcl => by
    cases hr.symm.trans hr'
    exact hf ho hcl

theorem removeRequest (rid : Nat) : ClassInv (s.removeRequest rid) wk :=
  ⟨h.freeNew, fun ho r hr => h.requests ho r (List.mem_of_mem_eraseP hr), h.grows⟩

theorem dropConn (conn : PooledConn C) : ClassInv (dropConn s conn) wk :=
  h.of_sub (dropConn_requests s conn) (fun ho => (moves_dropConn s conn).isOpen.symm.trans ho)
    (by rw [dropConn_config]) (by simp)

theorem leaves (hl : Leaves s conn u) : ClassInv u wk :=
  h.of_sub hl.requests (fun ho => hl.isOpen.symm.trans ho) (by rw [hl.config]) fun _ => hl.mem_freeNew

/-- Giving up a connection is harmless if it is not a new one of another class. -/
theorem reject {slot : Option (PooledConn C)}
    (hslot : s.isOpen = true → ∀ conn, slot = some conn → conn.isPoolExtra = false → conn.everAcquired = false →
      conn.cclass = s.config.creationCclass) : ClassInv (reject s slot) wk := by
  unfold Pool.reject
  split
  · exact h
  · rename_i conn
    split
    · exact h.of_sub rfl id rfl fun _ => id
    · rename_i hopen
      split
      · exact h.of_sub rfl id rfl fun _ => id
      · rename_i hextra
        split
        · rename_i hnew
          refine ⟨fun ho c hc => ?_, h.requests, h.grows⟩
          rcases List.mem_append.1 hc with hc | hc
          · exact h.freeNew ho c hc
          · rw [List.mem_singleton.1 hc]
            exact hslot ho conn rfl (Bool.eq_false_iff.2 hextra) (by simpa using hnew)
        · exact h.of_sub rfl id rfl fun _ => id

/-- A candidate for a request has its class. -/
theorem classMatches_of_candidate (ho : s.isOpen = true)
    (hinv : RequestInv s.isOpen s.config.creationCclass wk r) (hc : Candidate r s conn) :
    classMatches r.cclass conn = true := by
  rcases hc with ⟨-, -, hm⟩ | ⟨hm, hmem⟩
  · exact hm
  · rw [hinv.matching] at hm
    rw [classMatches, h.freeNew ho conn hmem]
    rcases Bool.or_eq_true_iff.1 hm with h | h
    · rw [h]; rfl
    · rw [beq_iff_eq.1 h]; simp

theorem returnEnds (hreq : RequestsInv s wk) (hend : ReturnEnds env s conn t) : ClassInv t wk := by
  cases hend with
  | dropped => exact h.dropConn _
  | given _ hr =>
    refine h.modifyFirst fun ho r' hr' _ => ?_
    obtain ⟨hun, -, hm⟩ := acceptsReturned_iff.1 (List.find?_some hr')
    have hinv := hreq r' (List.mem_of_find?_eq_some hr')
    exact Request.Classed.of_matches (r := r'.complete (conn.returned env)) rfl hm (Or.inl rfl) fun hw =>
      absurd hw (hinv.not_owned_of_waiting hun.inProgress hun.waiting)
  | freed => exact h.of_sub rfl id rfl fun _ => id

theorem enqueueRequest (hkey : Keyed s wk) (opts : AcquireOptions) :
    ClassInv (enqueueRequest s opts).2 wk := by
  unfold Pool.enqueueRequest
  split
  · exact h
  · refine ⟨h.freeNew, fun ho r hr => ?_, h.grows⟩
    rcases List.mem_append.1 hr with hr | hr
    · exact h.requests ho r hr
    · rw [List.mem_singleton.1 hr]
      exact Request.Classed.of_conn_eq_none rfl fun hw => absurd (hkey.workerLt _ hw) (Nat.lt_irrefl _)

theorem configure (setting : Setting) : ClassInv (setting.apply s) wk := by
  cases setting with
  | getmode value =>
    rw [Setting.apply]
    split
    · exact h
    · exact h.of_sub rfl id rfl fun _ => id
  | _ => exact h.of_sub rfl id rfl fun _ => id

end

theorem of_closed (ho : s.isOpen = false) : ClassInv s wk := by
  refine ⟨fun h => ?_, fun h => ?_, fun h => ?_⟩
  all_goals rw [ho] at h; cases h

/-! ### The worker's steps -/

theorem advance (h : ClassInv s wk)
    (hown : s.isOpen = true → ∀ r ∈ s.requests, wk'.request = some r.id → wk'.Classed r)
    (hgrows : s.isOpen = true → wk'.Grows s.config.creationCclass) : ClassInv s wk' :=
  ⟨h.freeNew, fun ho r hr => (h.requests ho r hr).of_worker (hown ho r hr), hgrows⟩

theorem work (h : ClassInv s wk) (hk : s.keys.Nodup) (hreq' : wk'.request = some rid) (hgrows : ∀ x, wk'.Grows x)
    (hid : ∀ r, (f r).id = r.id)
    (hself : s.isOpen = true → ∀ r, s.request? rid = some r → r.Classed s.config.creationCclass wk →
      (f r).Classed s.config.creationCclass wk') : ClassInv (s.modifyRequest rid f) wk' := by
  refine ⟨h.freeNew, fun ho r hr => ?_, fun _ => hgrows _⟩
  rcases mem_modifyRequest hk hr hid with ⟨hr, hne⟩ | ⟨r₀, hr₀, rfl⟩
  · refine (h.requests ho r hr).of_worker ?_
    rw [hreq']
    exact fun he => absurd (Option.some.inj he).symm hne
  · exact hself ho r₀ hr₀ (h.requests ho r₀ (List.mem_of_find?_eq_some hr₀))

theorem idle (h : ClassInv s wk) (hown : ∀ r : Request C, wk'.Classed r) (hgrows : ∀ x, wk'.Grows x) :
    ClassInv s wk' :=
  h.advance (fun _ r _ _ => hown r) fun _ => hgrows _

theorem vanished (h : ClassInv s wk) (hk : s.keys.Nodup) (hr : s.request? rid = none) :
    ClassInv s (.postProcess rid) := by
  refine h.advance (fun ho r hr' hid => ?_) fun _ => trivial
  rw [(request?_eq_some_iff hk).2 ⟨hr', (Option.some.inj hid).symm⟩] at hr
  cases hr

theorem pass (h : ClassInv s (.processing rid)) (hk : s.keys.Nodup) (hend : PickEnds s rid (.nothing, s)) :
    ClassInv s (.postProcess rid) := by
  cases hend with
  | unknown hr => exact h.vanished hk hr
  | nothing hr hno =>
    refine h.advance (fun ho r' hr' hid conn hc => ?_) fun _ => trivial
    cases ((request?_eq_some_iff hk).2 ⟨hr', (Option.some.inj hid).symm⟩).symm.trans hr
    -- nothing is to be done for the request, so its connection is not parked
    rcases hno with ⟨-, hnone⟩ | ⟨-, hneed⟩
    · rw [hnone] at hc; cases hc
    · rcases (h.requests ho _ hr').held conn hc with hm | ⟨-, hrep, -⟩
      · exact hm
      · rw [Request.needsCreate, hrep] at hneed; cases hneed

theorem ping (h : ClassInv s (.processing rid)) (hreq : RequestsInv s (.processing rid)) (hk : s.keys.Nodup)
    (hr : s.request? rid = some r) (hp : r.requiresPing = true) (hc : r.conn = some conn) :
    ClassInv (s.modifyRequest rid Request.emptied) (.pinging rid conn) := by
  refine h.work hk rfl (fun _ => by trivial) (fun _ => rfl) fun ho r' hr' hcl => ?_
  cases hr.symm.trans hr'
  refine Request.Classed.of_conn_eq_none rfl fun _ => ?_
  rcases hcl.held _ hc with hm | ⟨-, -, hb⟩
  · exact hm
  · have hown := (hreq _ (List.mem_of_find?_eq_some hr)).owned (by rw [request?_id hr]; rfl)
    exact absurd ((hb hp).symm.trans hown.1.1) nofun

theorem deliver (h : ClassInv s wk) (hreq : RequestsInv s wk) (hk : s.keys.Nodup) (hrid : wk.request = some rid)
    (hm : ∀ r : Request C, wk.Classed r → classMatches r.cclass conn = true) :
    ClassInv (s.modifyRequest rid fun r => { r with conn := some conn }) (.postProcess rid) := by
  refine h.work hk rfl (fun _ => by trivial) (fun _ => rfl) fun ho r hr hcl => ?_
  obtain rfl := request?_id hr
  have hm := hm r (hcl.worker hrid)
  have hown := (hreq r (List.mem_of_find?_eq_some hr)).owned hrid
  refine Request.Classed.of_matches rfl hm (Or.inr hown.1.1) fun _ c hc => ?_
  cases hc
  exact hm

theorem report {error : String} (h : ClassInv s (.createdFor rid none (.error error)))
    (hreq : RequestsInv s (.createdFor rid none (.error error))) (hk : s.keys.Nodup) :
    ClassInv (s.modifyRequest rid fun r => { r with error := some error }) (.postProcess rid) := by
  refine h.work hk rfl (fun _ => by trivial) (fun _ => rfl) fun ho r hr hcl => ?_
  obtain rfl := request?_id hr
  obtain ⟨-, -, -, hconn, -, -⟩ := (hreq r (List.mem_of_find?_eq_some hr)).owned rfl
  refine Request.Classed.of_conn_eq_none hconn fun _ c hc => ?_
  exact absurd (hconn.symm.trans hc) nofun

theorem processed (h : ClassInv s (.postProcess rid)) :
    ClassInv (s.modifyRequest rid Request.processed) (.top none) := by
  have htop : ClassInv s (.top none) := h.idle (fun _ => trivial) fun _ => trivial
  refine htop.modifyFirst fun ho r hr hcl => ?_
  have hm := (h.requests ho r (List.mem_of_find?_eq_some hr)).worker (by rw [request?_id hr]; rfl)
  cases hc : r.conn with
  | none => exact Request.Classed.of_conn_eq_none (r := r.processed) hc fun _ => trivial
  | some conn =>
    exact Request.Classed.of_matches (r := r.processed) hc (hm conn hc)
      (Or.inl (by simp [Request.processed, hc])) fun _ => trivial

theorem postCreateConn {connId : Nat} {result : Except String (PooledConn C)} (h : ClassInv s (.opened connId result))
    (hreq : RequestsInv s (.opened connId result)) : ClassInv (postCreateConn s connId result) (.top none) := by
  have hnative : (completeOpenEffect s connId).isOpen = true → ∀ conn, result = .ok conn →
      conn.Native (completeOpenEffect s connId).config.creationCclass := h.grows
  have h₁ : ClassInv (completeOpenEffect s connId) (.top none) :=
    ⟨h.freeNew, fun ho r hr => (h.requests ho r hr).of_worker fun _ => trivial, fun _ => trivial⟩
  have hreq₁ : RequestsInv (completeOpenEffect s connId) (.top none) :=
    (hreq.idle rfl rfl).of_requests_eq rfl rfl rfl
  unfold Pool.postCreateConn
  generalize completeOpenEffect s connId = t at h₁ hreq₁ hnative ⊢
  cases result with
  | error message =>
    dsimp only
    split
    · refine h₁.modifyFirst fun _ r hr _ => Request.Classed.of_conn_eq_none ?_ fun _ => trivial
      have := List.find?_some hr
      simp only [awaitsGrowth, Bool.and_eq_true, Option.isNone_iff_eq_none] at this
      exact this.2
    · exact h₁
  | ok conn =>
    dsimp only
    split
    · exact h₁.of_sub rfl id rfl fun _ => id
    · split
      · refine h₁.modifyFirst fun ho r hr _ => ?_
        exact Request.Classed.takeCreated (hreq₁ r (List.mem_of_find?_eq_some hr))
          (acceptsCreated_iff.1 (List.find?_some hr)).1 (hnative ho conn rfl)
      · refine ⟨fun ho c hc => ?_, h₁.requests, h₁.grows⟩
        rcases List.mem_append.1 hc with hc | hc
        · exact h₁.freeNew ho c hc
        · rw [List.mem_singleton.1 hc]
          exact (hnative ho conn rfl).1

theorem wrapCreated_eq_ok {answers : Answers C} {connId : Nat} {cclass : Option String} {isExtra : Bool}
    (h : wrapCreated answers connId cclass isExtra = .ok conn) : conn.Native cclass := by
  obtain ⟨c, -, rfl⟩ := except_map_eq_ok.1 h
  exact ⟨rfl, rfl⟩

end ClassInv

/-! ### Runs -/

/-- A step that does not give up a new connection of another class than the pool's. -/
def KeepsClasses (w : World C) (a : Action C) : Prop :=
  w.state.isOpen = true → ∀ conn ∈ givenUp w a, conn.isPoolExtra = false → conn.everAcquired = false →
    conn.cclass = w.state.config.creationCclass

private theorem classInv_edit {L : Nat → Prop} {w : World C} {a : Action C} {s t : PoolState C} {wk wk' : Worker C}
    (hkey : Keyed s wk) (hreq : RequestsInv s wk) (h : ClassInv s wk)
    (hG : s.isOpen = true → ∀ conn ∈ givenUp w a, conn.isPoolExtra = false →
      conn.everAcquired = false → conn.cclass = s.config.creationCclass) (he : Edit L w a s wk (t, wk')) :
    ClassInv t wk' := by
  have hmem : ∀ {r}, Fresh s r → RequestInv s.isOpen s.config.creationCclass wk r := fun hr =>
    hreq _ (List.mem_of_find?_eq_some hr.found)
  cases he with
  | drop hl => exact (h.leaves hl).dropConn _
  | attach ping hr hl hc =>
    refine (h.leaves hl).modifyRequest ((hl.request? _).trans hr.found) fun _ _ => ?_
    exact Request.Classed.attach (h.classMatches_of_candidate hr.isOpen (hmem hr) hc)
      ((hmem hr).not_owned hr.bgProcessing) ping
  | @victim _ conn u _ hr hl =>
    have hpush : ClassInv (pushToDrop u conn) wk := (h.leaves hl).of_sub rfl id rfl fun _ => id
    exact hpush.modifyRequest ((hl.request? _).trans hr.found) fun _ hcl =>
      hcl.enlist ((hmem hr).not_owned hr.bgProcessing) true false
  | enlist extra hr =>
    exact h.modifyRequest hr.found fun _ hcl => hcl.enlist ((hmem hr).not_owned hr.bgProcessing) false extra
  | schedule => exact h.of_sub rfl id rfl fun _ => id
  | finish => exact (h.removeRequest _).of_sub rfl id rfl fun _ => id
  | lose => exact h.removeRequest _
  | abandon _ hr | fail _ hr =>
    refine h.modifyRequest hr fun _ hcl => ⟨hcl.held, hcl.fresh, fun hw => ?_⟩
    have := hcl.worker hw
    cases wk <;> exact this
  | @giveUp _ _ r _ hr hb hgive =>
    -- a request that is given up unasked holds nothing, or a connection of the pool that was parked there
    refine (h.removeRequest _).reject fun ho conn hc hextra hnew => ?_
    have hown : r.completed = false → conn.cclass = s.config.creationCclass := fun hcomp =>
      ((h.requests ho r (List.mem_of_find?_eq_some hr)).fresh conn hc hcomp hb).1
    rcases hgive ho with herr | hcomp | hG'
    · exact hown ((hreq r (List.mem_of_find?_eq_some hr)).error herr).2.1
    · exact hown hcomp
    · exact hG ho conn (hG' conn hc) hextra hnew
  | @back connId _ _ _ _ _ hend =>
    exact ClassInv.returnEnds (s := { s with busy := s.busy.eraseP (·.id == connId) })
      { h with } hreq hend
  | @retire connId _ _ =>
    exact ClassInv.dropConn (s := { s with busy := s.busy.eraseP (·.id == connId) })
      { h with } _
  | enqueue opts => exact h.enqueueRequest hkey opts
  | configure setting => exact h.configure setting
  | shutdown => exact ClassInv.of_closed rfl
  | @pick r hp =>
    have htop : ClassInv s (.top (some r.id)) := h.idle (fun _ => trivial) fun _ => trivial
    exact htop.modifyFirst fun _ _ _ hcl => ⟨hcl.held, hcl.fresh, fun _ => trivial⟩
  | start | skip | gone | settle | clean | closed | rest | exit => exact h.idle (fun _ => trivial) fun _ => trivial
  | pass hend => exact h.pass hkey.keys hend
  | ping hr hp hc => exact h.ping hreq hkey.keys hr hp hc
  | @create rid r hr hp hn =>
    have hw : ClassInv (s.modifyRequest rid Request.emptied)
      (.creating rid s.nextConnId r.cclass r.isExtra r.conn) := by
      refine h.work hkey.keys rfl (fun _ => by trivial) (fun _ => rfl) fun ho r' hr' hcl => ?_
      cases hr.symm.trans hr'
      exact Request.Classed.of_conn_eq_none rfl fun _ => rfl
    exact hw.of_sub rfl id rfl fun _ => id
  | healthy => exact h.advance (fun ho r hr hid => (h.requests ho r hr).worker hid) fun _ => trivial
  | dead =>
    refine h.advance (fun ho r hr hid c hc => ?_) fun _ => trivial
    obtain ⟨-, -, -, hconn, -⟩ := (hreq r hr).owned hid
    exact absurd (hconn.symm.trans hc) nofun
  | restore => exact h.deliver hreq hkey.keys rfl fun _ => id
  | created =>
    refine h.advance (fun ho r hr hid conn hc => ?_) fun _ => trivial
    exact (ClassInv.wrapCreated_eq_ok hc).1.trans ((h.requests ho r hr).worker hid)
  | @replace _ old _ =>
    have hd := h.dropConn old
    exact hd.advance (fun ho r hr hid => (hd.requests ho r hr).worker hid) fun _ => trivial
  | strand hr => exact (h.vanished hkey.keys hr).of_sub rfl id rfl fun _ => id
  | deliver =>
    refine h.deliver hreq hkey.keys rfl fun r hcl => ?_
    rw [classMatches, hcl _ rfl]
    simp
  | report => exact h.report hreq hkey.keys
  | processed => exact h.processed
  | @reject rid r _ _ hG' =>
    have htop : ClassInv s (.top none) := h.idle (fun _ => trivial) fun _ => trivial
    exact (htop.removeRequest rid).reject fun ho conn hc => hG ho conn (hG' conn hc)
  | @effect connId _ =>
    have hopening : ClassInv s (.opening connId s.config.creationCclass) :=
      h.advance (fun _ _ _ hid => by cases hid) fun _ => rfl
    refine hopening.of_sub ?_ ?_ ?_ ?_
    all_goals
      unfold takeOpenEffect
      split <;> simp
  | opened answers =>
    refine h.advance (fun _ _ _ hid => by cases hid) fun ho conn hc => ?_
    have hcc := h.grows ho
    rw [← hcc]
    exact ClassInv.wrapCreated_eq_ok hc
  | grow => exact h.postCreateConn hreq
  | @close conn =>
    have hclosing : ClassInv s (.closing conn) := h.idle (fun _ => trivial) fun _ => trivial
    exact hclosing.of_sub rfl id rfl fun _ => id

/-- The edits of a step that keeps the classes keep the invariant. -/
theorem classInv_edits {L : Nat → Prop} {w : World C} {a : Action C} {t : PoolState C} {wk' : Worker C} (hinv : Inv w)
    (hreq : RequestsInv w.state w.worker) (h : ClassInv w.state w.worker) (hok : KeepsClasses w a)
    (he : Edits L w a (w.state, w.worker) (t, wk')) : ClassInv t wk' := by
  refine (he.keep (P := fun u wk => ClassInv u wk ∧ u.config.creationCclass = w.state.config.creationCclass ∧
    (u.isOpen = true → w.state.isOpen = true)) hinv.core.keyed hreq ⟨h, rfl, id⟩ ?_).2.1
  rintro u wk u' wk' hkey hreq ⟨h, hcc, ho⟩ he
  obtain ⟨hcc', hopen⟩ := he.frame
  have ho' : u'.isOpen = true → u.isOpen = true := by
    rcases hopen with h | ⟨rfl, -⟩
    · exact fun ho => h.symm.trans ho
    · exact nofun
  refine ⟨classInv_edit hkey hreq h (fun hou => ?_) he, hcc'.trans hcc, ho ∘ ho'⟩
  rw [hcc]
  exact hok (ho hou)

private theorem classInv_start (config : PoolConfig) : ClassInv (World.start config : World C).state (.top none) :=
  ⟨fun _ _ hc => (by cases hc), fun _ _ hr => (by cases hr), fun _ => trivial⟩

/-- The request that a step fulfils and the connection it hands out. -/
def handsOut (w : World C) : Action C → Option (Request C × PooledConn C)
  | .poll env rid =>
    match w.state.request? rid, pollRequestCompletion env w.state rid with
    | some r, (.ok (some connId), s) => (s.busy.find? (·.id == connId)).map (r, ·)
    | _, _ => none
  | _ => none

/-- An acquirer that named a class is handed a connection created with that class. -/
def HandsOutNamedClass (w : World C) (a : Action C) : Prop :=
  ∀ p ∈ handsOut w a, ∀ cclass ∈ p.1.cclass, p.2.cclass = some cclass

/-- The connection handed out by a poll fits the class of the request. -/
theorem classMatches_of_handsOut {w : World C} {a : Action C} (hinv : Inv w) (hreq : RequestsInv w.state w.worker)
    (h : ClassInv w.state w.worker) {p : Request C × PooledConn C} (hp : handsOut w a = some p) :
    classMatches p.1.cclass p.2 = true := by
  cases a with
  | poll env rid =>
    rw [handsOut] at hp
    split at hp
    · rename_i r connId s' hr hpoll
      have hnd : (ids s'.busy).Nodup := by
        have hheld := (pollRequestCompletion_spec env w.state rid).1.held
        rw [hpoll, add_zero] at hheld
        refine Multiset.nodup_of_le ((ids_busy_le_held s').trans ?_) hinv.core.tickets.nodup_held
        rw [← hheld]
        exact Multiset.le_add_right _ _
      have hend := pollEnds_pollRequestCompletion env w.state rid
      rw [hpoll] at hend
      cases hend with
      | @finished t r' conn hf hr' hc hconn =>
        obtain ⟨r₀, r₁, hr₀, hr₁, -, hcc, hopen⟩ := hf.completed_of_ok rfl
        cases hr₀.symm.trans hr
        cases hr'.symm.trans hr₁
        have hcl := (classInv_edits (L := fun _ => False) hinv hreq h (fun _ _ hc =>
          by cases hc) hf.edits).requests hopen r'
          (List.mem_of_find?_eq_some hr')
        -- the connection that was pushed is the one the identifier names
        have hfresh : (t.busy ++ [{ conn with everAcquired := true }]).find? (·.id == conn.id) =
            some { conn with everAcquired := true } := by
          rw [List.find?_append, List.find?_eq_none.2, Option.none_or]
          · simp
          · intro c hcm hid
            rw [ids_append, Multiset.nodup_add] at hnd
            refine Multiset.disjoint_left.1 hnd.2.2 (mem_ids.2 ⟨c, hcm, rfl⟩) ?_
            rw [beq_iff_eq.1 hid]
            simp
        rw [hfresh] at hp
        cases hp
        have hm : classMatches r'.cclass conn = true := by
          rcases hcl.held conn hconn with hm | ⟨hnc, -, -⟩
          · exact hm
          · rw [hc] at hnc; cases hnc
        rw [hcc] at hm
        exact hm
    · cases hp
  | _ => cases hp

/-- In a run whose steps never give up a new connection of another class, every acquirer that named a class is handed
a connection created with that class. -/
theorem handsOutNamedClass_of_keepsClasses (config : PoolConfig) (actions : List (Action C))
    (h : EachStep step KeepsClasses (World.start config) actions) :
    EachStep step HandsOutNamedClass (World.start config) actions := by
  have halong := along_of_eachStep (I := fun w : World C => Inv w ∧ RequestsInv w.state w.worker)
    (P := fun w => (Inv w ∧ RequestsInv w.state w.worker) ∧ ClassInv w.state w.worker)
    (fun w a w' hI hs => inv_requestsInv_step hI hs)
    (fun w a w' hI hP hok hs => ⟨inv_requestsInv_step hI hs, classInv_edits hI.1 hI.2 hP.2 hok (edits_step hs)⟩)
    ⟨inv_start config, requestsInv_start config⟩
    ⟨⟨inv_start config, requestsInv_start config⟩, classInv_start config⟩ h
  refine halong.eachStep fun w a w' hP _ p hp cclass hcc => ?_
  have hm := classMatches_of_handsOut hP.1.1 hP.1.2 hP.2 hp
  rw [Option.mem_def.1 hcc] at hm
  simpa [classMatches] using hm

/-! ### A connection that changes hands across classes -/

instance (w : World C) (a : Action C) : Decidable (KeepsClasses w a) :=
  inferInstanceAs (Decidable (_ = true → ∀ conn ∈ givenUp w a, _ = false → _ = false → _ = _))

instance (w : World C) (a : Action C) : Decidable (HandsOutNamedClass w a) :=
  inferInstanceAs (Decidable (∀ p ∈ handsOut w a, ∀ cclass ∈ p.1.cclass, p.2.cclass = some cclass))

/-- A pool that creates its own connections with class `P`. -/
def classedConfig : PoolConfig := { PoolConfig.new 0 2 1 with creationCclass := some "P" }

/-- A connection is created for an acquirer that named `X`, used and returned; an acquirer that named `P` is served
next, with a connection of the pool. -/
def ownClassRun : List (Action Unit) :=
  [.acquire .calm { cclass := some "X" }, .poll .calm 1] ++ List.replicate 5 (.work .calm) ++
    [.poll .calm 1, .release .calm 1, .acquire .calm { cclass := some "P" }, .poll .calm 2] ++
    List.replicate 4 (.work .calm) ++ [.poll .calm 2]

theorem handsOutNamedClass_ownClassRun :
    (exec step (World.start classedConfig) ownClassRun).isSome = true ∧
      EachStep step KeepsClasses (World.start classedConfig) ownClassRun ∧
      EachStep step HandsOutNamedClass (World.start classedConfig) ownClassRun :=
  ⟨by decide, by decide, handsOutNamedClass_of_keepsClasses classedConfig ownClassRun (by decide)⟩

/-- An acquirer that named `X` gives up while the worker creates its connection; the connection joins the new ones,
and an acquirer that named `P` is next. -/
def abandonedCreateRun : List (Action Unit) :=
  [.acquire .calm { cclass := some "X" }, .poll .calm 1] ++ List.replicate 2 (.work .calm) ++ [.abandon 1] ++
    List.replicate 3 (.work .calm) ++ [.acquire .calm { cclass := some "P" }]

/-- The acquirer that named `P` is handed the connection created with class `X`. -/
theorem abandonedCreateRun_crosses :
    ∃ w, exec step (World.start classedConfig) abandonedCreateRun = some w ∧
      (step w (.poll .calm 2)).isSome = true ∧
      (∃ r conn, handsOut w (.poll .calm 2) = some (r, conn) ∧ r.cclass = some "P" ∧ conn.cclass = some "X") ∧
      ¬HandsOutNamedClass w (.poll .calm 2) :=
  ⟨_, rfl, rfl, ⟨_, _, rfl, rfl, rfl⟩, by decide⟩

end OracleThin.Pool
