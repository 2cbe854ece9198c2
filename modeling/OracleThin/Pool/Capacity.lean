import OracleThin.Pool.Leak
import OracleThin.Pool.Requests

/-!
# The maximum

The pool decides to open connections by comparing `reserved_open_count` with its limits.  `occupied` is the number
that has to stay within the maximum: every connection in a list or in a slot, every scheduled create, every request
that is counted as opening, and what the worker has in hand for a request.  A decision is sound as long as the
reserved count is not below `occupied`, which holds except while the worker pings a connection
(`occupied_le_reserved`).
-/

namespace OracleThin.Pool

open Lib

variable {C : Type}

/-! ### Counting -/

/-- The worker creates a connection for the request. -/
def Worker.createsFor (rid : Nat) : Worker C → Bool
  | .creating requestId _ _ _ _ => requestId == rid
  | .createdFor requestId _ _ => requestId == rid
  | _ => false

/-- The worker creates a connection for some request. -/
def Worker.creates : Worker C → Bool
  | .creating _ _ _ _ _ => true
  | .createdFor _ _ _ => true
  | _ => false

/-- What a request takes of the pool: a connection in its slot, or the connection that is about to be made for it. -/
def Request.weight (wk : Worker C) (r : Request C) : Nat :=
  if wk.createsFor r.id then 0
  else if r.conn.isSome then 1
  else if requestIsOpening r && !wk.posts r.id then 1
  else 0

/-- What all the requests take. -/
def weights (s : PoolState C) (wk : Worker C) : Nat := (s.requests.map (Request.weight wk)).sum

/-- The connections in the lists of the pool and the scheduled creates. -/
def PoolState.stock (s : PoolState C) : Nat :=
  s.free.length + s.busy.length + s.openEffects.length + s.inFlightOpenEffects.length

/-- The places of the pool that are taken. -/
def occupied (s : PoolState C) (wk : Worker C) : Nat := s.stock + weights s wk + wk.pings.toNat + wk.creates.toNat

variable {w : World C} {f : Request C → Request C}

section Weights

variable {env : Env C} {s t u : PoolState C} {wk wk' : Worker C} {rid : Nat} {r : Request C} {conn : PooledConn C}

private theorem weight_le_one (wk : Worker C) (r : Request C) : r.weight wk ≤ 1 := by
  unfold Request.weight
  repeat' split
  all_goals omega

theorem Worker.creates_of_createsFor (h : wk.createsFor rid = true) : wk.creates = true ∧ wk.request = some rid := by
  cases wk <;> simp_all [Worker.createsFor, Worker.creates, Worker.request]

/-- The weight of a request that the worker has nothing to do with. -/
theorem weight_of_not_owned (hown : wk.request ≠ some r.id) :
    r.weight wk = if r.conn.isSome then 1 else if requestIsOpening r then 1 else 0 := by
  have hc : wk.createsFor r.id = false :=
    Bool.eq_false_iff.2 fun h => hown (Worker.creates_of_createsFor h).2
  have hp : wk.posts r.id = false := Worker.posts_eq_false hown
  simp [Request.weight, hc, hp]

private theorem weight_of_conn (hown : wk.request ≠ some r.id) (hc : r.conn.isSome = true) : r.weight wk = 1 := by
  rw [weight_of_not_owned hown, if_pos hc]

private theorem weight_of_not_opening (hc : r.conn = none) (ho : requestIsOpening r = false) : r.weight wk = 0 := by
  simp [Request.weight, hc, ho]

private theorem occupied_modifyFirst (wk : Worker C) {p : Request C → Bool} (h : s.requests.find? p = some r) :
    occupied { s with requests := modifyFirst p f s.requests } wk + r.weight wk =
      occupied s wk + (f r).weight wk := by
  have hsum := sum_map_modifyFirst (f := f) (Request.weight wk) h
  change s.stock + (List.map (Request.weight wk) (modifyFirst p f s.requests)).sum + _ + _ + _ =
    s.stock + (List.map (Request.weight wk) s.requests).sum + _ + _ + _
  omega

private theorem occupied_removeRequest (wk : Worker C) (h : s.request? rid = some r) :
    occupied (s.removeRequest rid) wk + r.weight wk = occupied s wk := by
  have hsum := sum_map_eraseP (Request.weight wk) h
  change s.stock + (List.map (Request.weight wk) (s.requests.eraseP (·.id == rid))).sum + _ + _ + _ =
    s.stock + (List.map (Request.weight wk) s.requests).sum + _ + _
  omega

private theorem occupied_of_requests_eq (wk : Worker C) (h : t.requests = s.requests) :
    occupied t wk + s.stock = occupied s wk + t.stock := by
  unfold occupied weights
  rw [h]
  omega

private theorem weight_of_other (hwk : wk.request ≠ some r.id) (hwk' : wk'.request ≠ some r.id) :
    r.weight wk' = r.weight wk := by
  rw [weight_of_not_owned hwk, weight_of_not_owned hwk']

private theorem weights_work (hk : s.keys.Nodup) (hr : s.request? rid = some r)
    (hwk : wk.request = some rid ∨ wk.request = none) (hwk' : wk'.request = some rid ∨ wk'.request = none) :
    weights (s.modifyRequest rid f) wk' + r.weight wk = weights s wk + (f r).weight wk' := by
  have hmod := sum_map_modifyFirst (f := f) (Request.weight wk') hr
  have herase := sum_map_eraseP (Request.weight wk) hr
  have herase' := sum_map_eraseP (Request.weight wk') hr
  have hothers : (s.removeRequest rid).requests.map (Request.weight wk') =
      (s.removeRequest rid).requests.map (Request.weight wk) := by
    refine List.map_congr_left fun r' hr' => ?_
    have hne := (mem_removeRequest hk hr').2
    exact weight_of_other (Worker.request_ne hwk hne) (Worker.request_ne hwk' hne)
  simp only [PoolState.removeRequest] at hothers
  rw [hothers] at herase'
  simp only [weights, PoolState.modifyRequest]
  omega

private theorem stock_leaves (hl : Leaves s conn u) : u.stock + 1 = s.stock := by
  have hlen := hl.length_free
  cases hl <;> simp only [PoolState.stock] at hlen ⊢ <;> omega

private theorem occupied_leaves (wk : Worker C) (hl : Leaves s conn u) : occupied u wk + 1 = occupied s wk := by
  have hsum := occupied_of_requests_eq wk hl.requests
  have hstock := stock_leaves hl
  omega

private theorem stock_unbusy {connId : Nat} (hc : s.busy.find? (·.id == connId) = some conn) :
    ({ s with busy := s.busy.eraseP (·.id == connId) } : PoolState C).stock + 1 = s.stock := by
  obtain ⟨a, b, hab, hrest, -⟩ := find?_eq_some_split hc
  simp only [PoolState.stock, PoolState.free]
  rw [hrest, hab]
  simp only [List.length_append, List.length_cons]
  omega

private theorem weights_shutdown (wk : Worker C) (l : List (Request C)) :
    (((l.filter (·.inProgress)).map fun r => ({ r with waiting := false, conn := none } : Request C)).map
      (Request.weight wk)).sum ≤ (l.map (Request.weight wk)).sum := by
  induction l with
  | nil => exact Nat.le_refl _
  | cons r rs ih =>
    rw [List.map_cons, List.sum_cons, List.filter_cons]
    split
    · rw [List.map_cons, List.map_cons, List.sum_cons]
      have hle : ({ r with waiting := false, conn := none } : Request C).weight wk ≤ r.weight wk := by
        have hopen : requestIsOpening ({ r with waiting := false, conn := none } : Request C) = requestIsOpening r :=
          rfl
        unfold Request.weight
        rw [hopen]
        cases wk.createsFor r.id <;> cases r.conn.isSome <;> cases requestIsOpening r <;> cases wk.posts r.id <;>
          simp
      omega
    · omega

end Weights

/-! ### The reserved count -/

theorem saturatingU32_eq {n : Nat} (h : saturatingU32 n < u32Max) : saturatingU32 n = n := by
  have hmin : saturatingU32 n = min n u32Max := rfl
  omega

section Reserved

variable {s : PoolState C} {wk : Worker C}

/-- Below the largest count the saturating additions are exact. -/
theorem reservedOpenCount_eq (h : reservedOpenCount s < u32Max) :
    reservedOpenCount s = s.free.length + s.busy.length + s.requests.countP (·.conn.isSome) +
      (s.openEffects.length + s.inFlightOpenEffects.length + s.requests.countP requestIsOpening) := by
  have hsum := saturatingU32_eq h
  have hactive : activeOpenCount s < u32Max := by
    unfold reservedOpenCount at h
    omega
  have hpending : pendingOpenCount s < u32Max := by
    unfold reservedOpenCount at h
    omega
  have ha := saturatingU32_eq hactive
  have hp := saturatingU32_eq hpending
  change activeOpenCount s = _ at ha
  change pendingOpenCount s = _ at hp
  change reservedOpenCount s = _ at hsum
  rw [hsum, ha, hp, PoolState.free, List.length_append]

private theorem countP_eq_sum {α : Type} (p : α → Bool) (l : List α) :
    l.countP p = (l.map fun x => (p x).toNat).sum := by
  induction l with
  | nil => rfl
  | cons x xs ih => rw [List.countP_cons, ih, List.map_cons, List.sum_cons]; cases p x <;> simp [Nat.add_comm]

/-- A request for which the worker creates a connection is counted as opening. -/
def Covered (s : PoolState C) (wk : Worker C) : Prop :=
  wk.creates = true → ∃ r ∈ s.requests, wk.createsFor r.id = true ∧ requestIsOpening r = true

/-- The requests take no more than what the counts attribute to them. -/
theorem weights_le (hcover : Covered s wk) :
    weights s wk + wk.creates.toNat ≤ s.requests.countP (·.conn.isSome) + s.requests.countP requestIsOpening := by
  have hsum : s.requests.countP (·.conn.isSome) + s.requests.countP requestIsOpening =
      (s.requests.map fun r => r.conn.isSome.toNat + (requestIsOpening r).toNat).sum := by
    rw [countP_eq_sum, countP_eq_sum, ← List.sum_map_add]
  have hle : ∀ r ∈ s.requests, r.weight wk ≤ r.conn.isSome.toNat + (requestIsOpening r).toNat := by
    intro r _
    unfold Request.weight
    cases wk.createsFor r.id <;> cases r.conn.isSome <;> cases requestIsOpening r <;> cases wk.posts r.id <;> decide
  rw [hsum]
  cases hc : wk.creates with
  | false => exact List.sum_le_sum hle
  | true =>
    obtain ⟨r, hr, hfor, hopen⟩ := hcover hc
    refine List.sum_lt_sum _ _ hle ⟨r, hr, ?_⟩
    simp [Request.weight, hfor, hopen]

/-- The reserved count covers everything except a connection that is being pinged. -/
theorem occupied_le_reserved (wk : Worker C) (h : reservedOpenCount s < u32Max) (hcover : Covered s wk) :
    occupied s wk ≤ reservedOpenCount s + wk.pings.toNat := by
  have heq := reservedOpenCount_eq h
  have hle := weights_le hcover
  unfold occupied PoolState.stock
  omega

end Reserved

/-! ### The invariant -/

/-- Why a request is counted as opening whenever a connection will be made for it. -/
structure Request.Counted (wk : Worker C) (r : Request C) : Prop where
  extra : r.isExtra = false
  pinged : r.bgProcessing = true → r.requiresPing = true → r.isReplacing = false
  /-- A request that is not queued is marked as replacing only together with a parked connection. -/
  fresh : r.bgProcessing = false → r.completed = false → r.error = none → r.waiting = true → r.isReplacing = true →
    r.conn.isSome = true
  /-- A queued request of another class is not abandoned before the worker has picked it. -/
  dedicated : r.bgProcessing = true → r.requiresPing = false → r.cclassMatches = false → r.waiting = false →
    wk.posts r.id = false → r.inProgress = true ∨ r.isReplacing = true
  posted : wk.posts r.id = true → r.conn = none → r.isReplacing = true → r.error.isSome = true ∨ r.waiting = false

/-- A request that is not the worker's is counted wherever the worker stands. -/
theorem Request.Counted.of_other {wk wk' : Worker C} {r : Request C} (h : r.Counted wk)
    (hwk : wk.request ≠ some r.id) (hwk' : wk'.request ≠ some r.id) : r.Counted wk' := by
  have hp : wk.posts r.id = false := Worker.posts_eq_false hwk
  have hp' : wk'.posts r.id = false := Worker.posts_eq_false hwk'
  exact ⟨h.extra, h.pinged, h.fresh, fun hb hr hc hw _ => h.dedicated hb hr hc hw hp,
    fun hposts => Bool.noConfusion (hp'.symm.trans hposts)⟩

/-- A request that has its outcome and is not queued is counted, unless it is about to be post-processed. -/
theorem Request.Counted.of_outcome {wk : Worker C} {r : Request C} (hextra : r.isExtra = false)
    (hb : r.bgProcessing = false) (hdone : r.completed = true ∨ r.error.isSome = true)
    (hposts : wk.posts r.id = false) :
    r.Counted wk := by
  constructor <;> grind

/-- The pool keeps to the limits of `config`. -/
structure CapInv (config : PoolConfig) (s : PoolState C) (wk : Worker C) : Prop where
  limits : config.min ≤ config.max ∧ config.max ≤ u32Max
  unforced : s.forceGet = false
  min_eq : s.config.min = config.min
  max_eq : s.config.max = config.max
  present : s.isOpen = true → ∀ rid, wk.request = some rid → rid ∈ s.keys
  counted : ∀ r ∈ s.requests, r.Counted wk
  le : occupied s wk ≤ config.max

/-- The worker's request is counted as opening when a connection is to be made for it. -/
theorem opening_of_needsCreate {isOpen : Bool} {creation : Option String} {wk : Worker C} {r : Request C}
    (hinv : RequestInv isOpen creation wk r) (hcnt : r.Counted wk) (hown : wk.request = some r.id)
    (hposts : wk.posts r.id = false) (hp : r.requiresPing = false) (he : r.error = none)
    (hn : r.needsCreate = true) : requestIsOpening r = true := by
  obtain ⟨⟨hb, hmark⟩, hc, -⟩ := hinv.owned hown
  have hcause : r.inProgress = true ∨ r.isReplacing = true := by
    rcases hmark with hi | hw
    · exact Or.inl hi
    · cases hrep : r.isReplacing with
      | true => exact Or.inr rfl
      | false =>
        have hm : r.cclassMatches = false := by
          simpa [Request.needsCreate, hrep, hcnt.extra] using hn
        have := hcnt.dedicated hb hp hm hw hposts
        rwa [hrep] at this
  rcases hcause with h | h <;> simp [requestIsOpening, hb, hp, hc, he, h]

/-- The connections in the free lists that a poll would try for `r` are alive and young enough. -/
structure AllUsable (env : Env C) (r : Request C) (s : PoolState C) : Prop where
  used : r.wantsNew = false → ∀ c ∈ s.freeUsed, classMatches r.cclass c = true → usable env s.config c = true
  new : r.cclassMatches = true → ∀ c ∈ s.freeNew, usable env s.config c = true

theorem AllUsable.usable {env : Env C} {r : Request C} {s : PoolState C} (h : AllUsable env r s) (conn : PooledConn C)
    (hc : Candidate r s conn) : usable env s.config conn = true := by
  rcases hc with ⟨hw, hu, hm⟩ | ⟨hm, hn⟩
  · exact h.used hw conn hu hm
  · exact h.new hm conn hn

/-- What a poll that looks for a connection has to find: while the worker pings one, no dead connection in the free
lists and room for it beside those that the poll lets open; and none that could take the place of one that the request
holds. -/
def Seeks (env : Env C) (s : PoolState C) (wk : Worker C) (rid : Nat) : Prop :=
  ∀ r ∈ s.request? rid, s.isOpen = true → r.error.isNone = true → r.completed = false → r.bgProcessing = false →
    (wk.pings = true → AllUsable env r s ∧ (reservedOpenCount s < s.config.max → reservedOpenCount s +
      growth (s.modifyRequest rid Request.unping) r.wantsNew r.cclass r.cclassMatches < s.config.max)) ∧
    (r.conn.isSome = true → Exhausted r s)

section

variable {env : Env C} {w : World C} {a : Action C} {wk : Worker C} {r : Request C} {s : PoolState C}
  (h : Seeks env w.state w.worker r.id)
include h

theorem Seeks.not_candidate (hs : Sought w a wk r) (hc : r.conn.isSome = true) (conn : PooledConn C) :
    ¬Candidate r w.state conn := by
  obtain ⟨hr, -, rfl⟩ := hs
  have hex := (h r hr.found hr.isOpen (by rw [hr.error]; rfl) hr.completed hr.bgProcessing).2 hc
  rintro (⟨hw, hu, hm⟩ | ⟨hm, hn⟩)
  · exact Bool.noConfusion (hm.symm.trans (hex.used hw conn hu))
  · rw [hex.new hm] at hn; cases hn

/-- While the worker pings, the scan discards nothing, and what the poll lets open leaves room. -/
theorem Seeks.scanning (hs : Scanning w a wk env r s) (hp : wk.pings = true) :
    AllUsable env r s ∧ (reservedOpenCount s < s.config.max → reservedOpenCount s +
      growth (s.modifyRequest r.id Request.unping) r.wantsNew r.cclass r.cclassMatches < s.config.max) := by
  obtain ⟨⟨hr, -, rfl⟩, -, hd⟩ := hs
  have hseeks := (h r hr.found hr.isOpen (by rw [hr.error]; rfl) hr.completed hr.bgProcessing).1 hp
  rw [hd.eq_of_usable hseeks.1.usable]
  exact hseeks

end

namespace CapInv

variable {env : Env C} {config : PoolConfig} {s t u : PoolState C} {wk wk' : Worker C} {rid : Nat} {r : Request C}
  {conn : PooledConn C}

section

variable (h : CapInv config s wk)

include h

theorem cover (hreq : RequestsInv s wk) (ho : s.isOpen = true) : Covered s wk := by
  intro hc
  obtain ⟨rid, hrid, hfor, hposts, hstage⟩ : ∃ rid, wk.request = some rid ∧ wk.createsFor rid = true ∧
      wk.posts rid = false ∧ ∀ r, wk.Stage r → r.requiresPing = false ∧ r.error = none ∧ r.needsCreate = true := by
    cases wk with
    | creating rid | createdFor rid =>
      exact ⟨rid, rfl, by simp [Worker.createsFor], rfl, fun r hst => ⟨hst.1, hst.2.2.1, hst.2.2.2⟩⟩
    | _ => cases hc
  obtain ⟨r, hr, rfl⟩ := List.mem_map.1 (h.present ho rid hrid)
  obtain ⟨hp, he, hn⟩ := hstage r ((hreq r hr).owned hrid).2.2
  exact ⟨r, hr, hfor, opening_of_needsCreate (hreq r hr) (h.counted r hr) hrid hposts hp he hn⟩

theorem of_requests_eq (hreq : t.requests = s.requests) (hforce : t.forceGet = s.forceGet)
    (hmin : t.config.min = s.config.min) (hmax : t.config.max = s.config.max)
    (hopen : t.isOpen = true → s.isOpen = true)
    (hle : occupied s wk + t.stock ≤ config.max + s.stock) : CapInv config t wk where
  limits := h.limits
  unforced := hforce.trans h.unforced
  min_eq := hmin.trans h.min_eq
  max_eq := hmax.trans h.max_eq
  present ho := by rw [PoolState.keys, hreq]; exact h.present (hopen ho)
  counted := by rw [hreq]; exact h.counted
  le := by
    have hsum := occupied_of_requests_eq wk hreq
    omega

theorem modifyFirst {p : Request C → Bool} (hr : s.requests.find? p = some r) (hid : ∀ r, (f r).id = r.id)
    (hf : (f r).Counted wk) (hle : occupied s wk + (f r).weight wk ≤ config.max + r.weight wk) :
    CapInv config { s with requests := Lib.modifyFirst p f s.requests } wk where
  __ := h
  present ho rid hw := by
    rw [PoolState.keys, map_modifyFirst_of_eq Request.id hid]
    exact h.present ho rid hw
  counted r' hr' := by
    rcases mem_modifyFirst hr' with hr' | ⟨r₀, hr₀, rfl⟩
    · exact h.counted r' hr'
    · cases hr.symm.trans hr₀
      exact hf
  le := by
    have hsum := occupied_modifyFirst wk (f := f) hr
    omega

theorem removeRequest (hr : s.request? rid = some r) (hown : wk.request ≠ some rid) :
    CapInv config (s.removeRequest rid) wk where
  __ := h
  present ho rid' hw := by
    rw [keys_removeRequest]
    refine (List.mem_erase_of_ne ?_).2 (h.present ho rid' hw)
    rintro rfl
    exact hown hw
  counted r hr := h.counted r (List.mem_of_mem_eraseP hr)
  le := by
    have hsum := occupied_removeRequest wk hr
    have := h.le
    omega

/-- Scheduling up to a limit stays within the maximum, unless the last place belongs to a connection that is being
pinged. -/
theorem schedule {k n : Nat} (hk : k ≤ config.max) (hlt : reservedOpenCount s < k)
    (hle : reservedOpenCount s + n ≤ k) (hping : wk.pings = true → reservedOpenCount s + n < config.max)
    (hcover : Covered s wk) :
    CapInv config (scheduleOpenEffects s n) wk := by
  refine h.of_requests_eq rfl rfl rfl rfl id ?_
  have hlim := h.limits
  have hocc := occupied_le_reserved wk (s := s) (by omega) hcover
  have hstock : (scheduleOpenEffects s n).stock = s.stock + n := by
    simp only [scheduleOpenEffects, PoolState.stock, PoolState.free, List.length_append, List.length_range']
    omega
  have hone : wk.pings.toNat ≤ 1 := Bool.toNat_le _
  have hp : wk.pings.toNat = 1 → reservedOpenCount s + n < config.max := fun h => hping (by simpa using h)
  omega

theorem ensureMinConnections (hping : wk.pings = true → config.min < config.max)
    (hcover : s.isOpen = true → Covered s wk) : CapInv config (ensureMinConnections s) wk := by
  unfold Pool.ensureMinConnections
  split
  · rename_i hcond
    rw [Bool.and_eq_true, decide_eq_true_eq] at hcond
    have hmin := h.min_eq
    exact h.schedule (k := s.config.min) (by have := h.limits; omega) hcond.2 (by omega)
      (fun hp => by have := hping hp; omega) (hcover hcond.1)
  · exact h

theorem leaves (hl : Leaves s conn u) : CapInv config u wk := by
  have hstock := stock_leaves hl
  have := h.le
  refine h.of_requests_eq hl.requests ?_ (by rw [hl.config]) (by rw [hl.config]) (fun ho => hl.isOpen.symm.trans ho)
    (by omega)
  cases hl <;> rfl

theorem dropConn (hreq : RequestsInv s wk)
    (hping : wk.pings = true → config.min < config.max) (conn : PooledConn C) : CapInv config (dropConn s conn) wk :=
  ensureMinConnections (s := pushToDrop s conn)
    (h.of_requests_eq rfl rfl rfl rfl id (Nat.add_le_add_right h.le _)) hping (h.cover hreq)

theorem reject (slot : Option (PooledConn C))
    (hle : occupied s wk + slot.isSome.toNat ≤ config.max) : CapInv config (reject s slot) wk := by
  unfold Pool.reject
  split
  · exact h
  · rename_i conn
    have hroom : occupied s wk + 1 ≤ config.max := hle
    split
    · exact h.of_requests_eq rfl rfl rfl rfl id (Nat.add_le_add_right h.le _)
    · split
      · exact h.of_requests_eq rfl rfl rfl rfl id (Nat.add_le_add_right h.le _)
      · -- one more connection in one of the free lists
        split
        all_goals
          refine h.of_requests_eq rfl rfl rfl rfl id ?_
          simp only [PoolState.stock, PoolState.free, List.length_append, List.length_singleton]
          omega

theorem giveUp (hr : s.request? rid = some r) (hown : wk.request ≠ some rid) :
    CapInv config (Pool.reject (s.removeRequest rid) r.conn) wk := by
  obtain rfl := request?_id hr
  refine (h.removeRequest hr hown).reject r.conn ?_
  have hsum := occupied_removeRequest wk hr
  have := h.le
  cases hc : r.conn with
  | none => simp only [Option.isSome_none, Bool.toNat_false]; omega
  | some conn =>
    have hw := weight_of_conn hown (by rw [hc]; rfl)
    simp only [Option.isSome_some, Bool.toNat_true]
    omega

theorem abandon (hr : s.request? rid = some r)
    (hmark : r.requiresPing = false → r.cclassMatches = false → wk.posts r.id = false →
      r.inProgress = true ∨ r.isReplacing = true) :
    CapInv config (s.modifyRequest rid fun r => { r with waiting := false }) wk := by
  have hcnt := h.counted r (List.mem_of_find?_eq_some hr)
  refine h.modifyFirst hr (fun _ => rfl) ?_ (Nat.add_le_add_right h.le _)
  exact ⟨hcnt.extra, hcnt.pinged, nofun, fun _ hp hm _ hposts => hmark hp hm hposts, fun _ _ _ => Or.inr rfl⟩

theorem of_fresh (hreq : RequestsInv s wk) (hr : Fresh s r) :
    r.Counted wk ∧ wk.request ≠ some r.id ∧ r.inProgress = false ∧ r.waiting = true ∧ requestIsOpening r = false ∧
      (r.conn = none → r.isReplacing = false) := by
  have hmem := List.mem_of_find?_eq_some hr.found
  have hcnt := h.counted r hmem
  have hown := (hreq r hmem).not_owned hr.bgProcessing
  have hwait : r.waiting = true := by
    by_contra hw
    have := (hreq r hmem).abandoned (by simpa using hw)
    rw [hr.bgProcessing] at this
    cases this
  refine ⟨hcnt, hown, ?_, hwait, by simp [requestIsOpening, hr.bgProcessing], fun hc => ?_⟩
  · exact Bool.eq_false_iff.2 fun hi => hown ((hreq r hmem).inProgress hr.isOpen hi)
  · by_contra hrep
    have := hcnt.fresh hr.bgProcessing hr.completed hr.error hwait (by simpa using hrep)
    rw [hc] at this
    cases this

theorem attach (hreq : RequestsInv s wk) (hr : Fresh s r) (hl : Leaves s conn u)
    (hnone : r.conn = none) (ping : Bool) : CapInv config (u.modifyRequest r.id (Request.attach ping conn)) wk := by
  obtain ⟨hcnt, hown, -, -, hopen, hrep⟩ := h.of_fresh hreq hr
  have hru : u.request? r.id = some r := (hl.request? _).trans hr.found
  have hposts : wk.posts r.id = false := Worker.posts_eq_false hown
  refine (h.leaves hl).modifyFirst hru (Request.attach_id ping conn) ?_ ?_
  · cases ping with
    | true =>
      exact ⟨hcnt.extra, fun _ _ => hrep hnone, nofun, nofun, fun hp => Bool.noConfusion (hposts.symm.trans hp)⟩
    | false =>
      exact .of_outcome hcnt.extra hr.bgProcessing (Or.inl rfl) hposts
  · have hocc := occupied_leaves wk hl
    have hle := h.le
    have hone := weight_le_one wk (r.attach ping conn)
    omega

/-- A queued request is counted, and takes a place it did not take before only for a victim that left. -/
theorem enlist (hreq : RequestsInv s wk) (hr : Fresh s r) (replacing : Bool)
    (hv : CapInv config u wk) (hu : u.requests = s.requests) (hle : replacing = true → occupied u wk < config.max) :
    CapInv config (u.modifyRequest r.id (Request.enlist replacing false)) wk := by
  obtain ⟨hcnt, hown, hprog, hwait, hopen, hrep⟩ := h.of_fresh hreq hr
  have hru : u.request? r.id = some r := by rw [PoolState.request?, hu]; exact hr.found
  have hposts : wk.posts r.id = false := Worker.posts_eq_false hown
  have hone := weight_le_one wk (r.enlist replacing false)
  refine hv.modifyFirst hru (fun _ => rfl) ?_ ?_
  · refine ⟨by simp [Request.enlist, hcnt.extra], fun _ hp => Bool.noConfusion hp,
      (Bool.noConfusion ·), fun _ _ _ hw => ?_, fun hp => Bool.noConfusion (hposts.symm.trans hp)⟩
    exact Bool.noConfusion (hwait.symm.trans hw)
  · cases replacing with
    | true =>
      have := hle rfl
      omega
    | false =>
      have hle := hv.le
      cases hc : r.conn with
      | some c =>
        have hw := weight_of_conn hown (by rw [hc]; rfl)
        omega
      | none =>
        have hidle : requestIsOpening (r.enlist false false) = false := by
          simp [requestIsOpening, Request.enlist, hprog, hcnt.extra, hrep hc]
        have hzero : (r.enlist false false).weight wk = 0 := weight_of_not_opening hc hidle
        omega

theorem fail (hreq : RequestsInv s wk) (hr : s.request? rid = some r)
    (he : r.error.isSome = true) (hb : r.bgProcessing = true) :
    CapInv config (s.modifyRequest rid fun r => { r with error := none, waiting := false }) wk := by
  have hcnt := h.counted r (List.mem_of_find?_eq_some hr)
  obtain ⟨hconn, -, hpost⟩ := (hreq r (List.mem_of_find?_eq_some hr)).error he
  have hposts : wk.posts r.id = true := hpost.resolve_left (by rw [hb]; nofun)
  refine h.modifyFirst hr (fun _ => rfl) ?_ ?_
  · exact ⟨hcnt.extra, hcnt.pinged, fun hb' => Bool.noConfusion (hb.symm.trans hb'),
      fun _ _ _ _ hp => Bool.noConfusion (hposts.symm.trans hp), fun _ _ _ => Or.inr rfl⟩
  · have hzero : ({ r with error := none, waiting := false } : Request C).weight wk = 0 := by
      simp [Request.weight, hconn, hposts]
    have := h.le
    omega

theorem handOut (hr : s.request? rid = some r) (hown : wk.request ≠ some rid)
    (hconn : r.conn = some conn) :
    CapInv config { s.removeRequest rid with busy := s.busy ++ [{ conn with everAcquired := true }] } wk := by
  obtain rfl := request?_id hr
  have hsum := occupied_removeRequest wk hr
  have hw := weight_of_conn hown (by rw [hconn]; rfl)
  have hle := h.le
  refine (h.removeRequest hr hown).of_requests_eq rfl rfl rfl rfl id ?_
  simp only [PoolState.stock, PoolState.free, PoolState.removeRequest, List.length_append,
    List.length_singleton] at hsum ⊢
  omega

variable {connId : Nat}

theorem unbusy (hc : s.busy.find? (·.id == connId) = some conn) :
    CapInv config { s with busy := s.busy.eraseP (·.id == connId) } wk := by
  have hstock := stock_unbusy hc
  have := h.le
  exact h.of_requests_eq rfl rfl rfl rfl id (by omega)

theorem returnEnds (hreq : RequestsInv s wk)
    (hping : keepsReturned env s conn = false → wk.pings = true → config.min < config.max)
    (hroom : occupied s wk + 1 ≤ config.max) (hend : ReturnEnds env s conn t) : CapInv config t wk := by
  cases hend with
  | dropped hkeep => exact h.dropConn hreq (hping hkeep) _
  | @given r _ hr =>
    obtain ⟨hun, -, -⟩ := acceptsReturned_iff.1 (List.find?_some hr)
    have hcnt := h.counted r (List.mem_of_find?_eq_some hr)
    have hown := (hreq r (List.mem_of_find?_eq_some hr)).not_owned_of_waiting hun.inProgress hun.waiting
    have hposts : wk.posts r.id = false := Worker.posts_eq_false hown
    have hone := weight_le_one wk (r.complete (conn.returned env))
    exact h.modifyFirst hr (fun _ => rfl) (.of_outcome hcnt.extra rfl (Or.inl rfl) hposts) (by omega)
  | freed =>
    refine h.of_requests_eq rfl rfl rfl rfl id ?_
    simp only [PoolState.stock, PoolState.free, List.length_append, List.length_singleton]
    omega

theorem returnBusy (hreq : RequestsInv s wk) (hping : keepsReturned env
      { s with busy := s.busy.eraseP (·.id == connId) } conn = false → wk.pings = true → config.min < config.max)
    (hc : s.busy.find? (·.id == connId) = some conn)
    (hend : ReturnEnds env { s with busy := s.busy.eraseP (·.id == connId) } conn t) : CapInv config t wk := by
  have hstock := stock_unbusy hc
  have hsum := occupied_of_requests_eq wk
    (show ({ s with busy := s.busy.eraseP (·.id == connId) } : PoolState C).requests = s.requests from rfl)
  have := h.le
  exact (h.unbusy hc).returnEnds (hreq.of_requests_eq rfl rfl rfl) hping (by omega) hend

theorem enqueueRequest (opts : AcquireOptions) :
    CapInv config (enqueueRequest s opts).2 wk := by
  unfold Pool.enqueueRequest
  split
  · exact h
  · refine ⟨h.limits, h.unforced, h.min_eq, h.max_eq, fun ho rid hw => ?_, fun r hr => ?_, ?_⟩
    · rw [PoolState.keys, List.map_append]
      exact List.mem_append_left _ (h.present ho rid hw)
    · rcases List.mem_append.1 hr with hr | hr
      · exact h.counted r hr
      · rw [List.mem_singleton.1 hr]
        constructor <;> simp
    · have := h.le
      simp only [occupied, weights, PoolState.stock, PoolState.free, List.map_append, List.sum_append, List.map_cons,
        List.map_nil, List.sum_cons, List.sum_nil] at this ⊢
      rw [weight_of_not_opening rfl rfl]
      omega

theorem configure {setting : Setting}
    (hforce : ∀ value, setting = .getmode value → value ≠ poolGetmodeForceget) :
    CapInv config (setting.apply s) wk := by
  cases setting with
  | getmode value =>
    rw [Setting.apply]
    split
    · exact h
    · refine h.of_requests_eq rfl ?_ rfl rfl id (Nat.add_le_add_right h.le _)
      rw [h.unforced]
      simpa using hforce value rfl
  | _ => exact h.of_requests_eq rfl rfl rfl rfl id (Nat.add_le_add_right h.le _)

theorem shutdown (hreq : RequestsInv s wk) (hopen : s.isOpen = true) :
    CapInv config (requestWorkerShutdownLocked s) wk := by
  refine ⟨h.limits, h.unforced, h.min_eq, h.max_eq, (Bool.noConfusion ·), fun r' hr' => ?_, ?_⟩
  · simp only [requestWorkerShutdownLocked, List.mem_map, List.mem_filter] at hr'
    obtain ⟨r, ⟨hr, hp⟩, rfl⟩ := hr'
    have hcnt := h.counted r hr
    have hb := ((hreq r hr).owned ((hreq r hr).inProgress hopen hp)).1.1
    exact ⟨hcnt.extra, hcnt.pinged, fun hb' => Bool.noConfusion (hb.symm.trans hb'), fun _ _ _ _ _ => Or.inl hp,
      fun _ _ _ => Or.inr rfl⟩
  · have := h.le
    have hsum := weights_shutdown wk s.requests
    simp only [occupied, weights, requestWorkerShutdownLocked, PoolState.stock, PoolState.free, List.length_nil,
      List.append_nil] at this ⊢
    omega

/-! ### The worker's steps -/

theorem relocate (hreq : ∀ rid, wk'.request = some rid → wk.request = some rid)
    (hfor : ∀ rid, wk'.createsFor rid = wk.createsFor rid) (hposts : ∀ rid, wk'.posts rid = wk.posts rid)
    (hpings : wk'.pings = wk.pings) (hcreates : wk'.creates = wk.creates) : CapInv config s wk' where
  __ := h
  present ho rid hw := h.present ho rid (hreq rid hw)
  counted r hr := by
    have hcnt := h.counted r hr
    exact ⟨hcnt.extra, hcnt.pinged, hcnt.fresh, by rw [hposts]; exact hcnt.dedicated,
      by rw [hposts]; exact hcnt.posted⟩
  le := by
    have hw : Request.weight wk' = Request.weight wk := by
      funext r
      rw [Request.weight, Request.weight, hfor, hposts]
    unfold occupied weights
    rw [hw, hpings, hcreates]
    exact h.le

theorem work (wk' : Worker C) (hk : s.keys.Nodup) (hr : s.request? rid = some r)
    (hwk : wk.request = some rid ∨ wk.request = none) (hwk' : wk'.request = some rid ∨ wk'.request = none)
    (hid : ∀ r, (f r).id = r.id) (hf : r.Counted wk → (f r).Counted wk')
    (hle : occupied s wk + (f r).weight wk' + wk'.pings.toNat + wk'.creates.toNat ≤
      config.max + r.weight wk + wk.pings.toNat + wk.creates.toNat) :
    CapInv config (s.modifyRequest rid f) wk' where
  __ := h
  present _ i hw := by
    cases not_imp_not.1 (Worker.request_ne hwk') hw
    simp only [PoolState.keys, PoolState.modifyRequest, map_modifyFirst_of_eq Request.id hid]
    exact List.mem_map.2 ⟨r, List.mem_of_find?_eq_some hr, request?_id hr⟩
  counted r' hr' := by
    rcases mem_modifyRequest hk hr' hid with ⟨hr', hne⟩ | ⟨r₀, hr₀, rfl⟩
    · exact (h.counted r' hr').of_other (Worker.request_ne hwk hne) (Worker.request_ne hwk' hne)
    · cases hr.symm.trans hr₀
      exact hf (h.counted r (List.mem_of_find?_eq_some hr))
  le := by
    have hsum := weights_work (f := f) hk hr hwk hwk'
    change s.stock + weights (s.modifyRequest rid f) wk' + _ + _ ≤ _
    unfold occupied at hle
    omega

theorem unlisted (hr : s.request? rid = none) (hwk : wk.request = some rid)
    (hwk' : wk'.request = some rid ∨ wk'.request = none)
    (hle : wk'.pings.toNat + wk'.creates.toNat ≤ wk.pings.toNat + wk.creates.toNat) : CapInv config s wk' := by
  have hne : ∀ r ∈ s.requests, r.id ≠ rid := fun r hr' hid => by
    simpa [hid] using List.find?_eq_none.1 hr r hr'
  have hother : ∀ r ∈ s.requests, wk.request ≠ some r.id ∧ wk'.request ≠ some r.id := fun r hr' =>
    ⟨Worker.request_ne (Or.inl hwk) (hne r hr'), Worker.request_ne hwk' (hne r hr')⟩
  refine ⟨h.limits, h.unforced, h.min_eq, h.max_eq, fun ho i hw => ?_, fun r hr' => ?_, ?_⟩
  · rw [not_imp_not.1 (Worker.request_ne hwk') hw]; exact h.present ho rid hwk
  · exact (h.counted r hr').of_other (hother r hr').1 (hother r hr').2
  · have hw : weights s wk' = weights s wk := by
      unfold weights
      rw [List.map_congr_left fun r hr' => weight_of_other (hother r hr').1 (hother r hr').2]
    have := h.le
    unfold occupied at this ⊢
    omega

/-- The worker changes its own request, if that is still in the table, and goes on to post-process it. -/
theorem settle (hreq : RequestsInv s wk) (hk : s.keys.Nodup) (hwk : wk.request = some rid)
    (hid : ∀ r, (f r).id = r.id) (hsame : ∀ r, (f r).isExtra = r.isExtra ∧ (f r).bgProcessing = r.bgProcessing ∧
      (f r).requiresPing = r.requiresPing ∧ (f r).isReplacing = r.isReplacing)
    (hposted : ∀ r, s.request? rid = some r → (f r).conn = none → r.isReplacing = true →
      (f r).error.isSome = true ∨ (f r).waiting = false)
    (hle : ∀ r, s.request? rid = some r →
      (f r).weight (.postProcess rid) ≤ r.weight wk + (wk.pings.toNat + wk.creates.toNat)) :
    CapInv config (s.modifyRequest rid f) (.postProcess rid) := by
  cases hr : s.request? rid with
  | none =>
    rw [PoolState.modifyRequest, modifyFirst_of_find?_eq_none hr]
    exact h.unlisted hr hwk (Or.inl rfl) (Nat.zero_le _)
  | some r =>
    refine h.work (.postProcess rid) hk hr (Or.inl hwk) (Or.inl rfl) hid (fun hcnt => ?_) ?_
    · obtain ⟨hx, hb, hp, hrep⟩ := hsame r
      have howned := ((hreq r (List.mem_of_find?_eq_some hr)).owned (by rw [request?_id hr]; exact hwk)).1.1
      refine ⟨hx.trans hcnt.extra, fun _ hping => ?_, fun hb' => ?_, fun _ _ _ _ hposts => ?_, fun _ hc hrep' => ?_⟩
      · rw [hrep]
        exact hcnt.pinged howned (hp ▸ hping)
      · exact Bool.noConfusion ((hb.trans howned).symm.trans hb')
      · simp [Worker.posts, hid, request?_id hr] at hposts
      · exact hposted r hr hc (hrep ▸ hrep')
    · have hmax := h.le
      have hweight := hle r hr
      have hnone : (Worker.postProcess rid : Worker C).pings.toNat +
        (Worker.postProcess rid : Worker C).creates.toNat = 0 :=
        rfl
      omega

end

/-- Picking a request takes a place only for one of another class, within the room the pool has. -/
theorem pick (h : CapInv config s (.top none)) (hk : s.keys.Nodup) (hpick : Picks s r) :
    CapInv config (s.modifyRequest r.id fun r => { r with inProgress := r.waiting }) (.top (some r.id)) := by
  obtain ⟨hfind, hwork⟩ := hpick
  have hmem := List.mem_of_find?_eq_some hfind
  have hr : s.request? r.id = some r := (request?_eq_some_iff hk).2 ⟨hmem, rfl⟩
  have hcnt := h.counted r hmem
  have hseen := List.find?_some hfind
  simp only [transparentToWorker, Bool.not_or, Bool.and_eq_true, Bool.not_eq_true', Bool.not_not] at hseen
  obtain ⟨⟨-, hprog⟩, -⟩ := hseen
  refine h.work (.top (some r.id)) hk hr (Or.inr rfl) (Or.inl rfl) (fun _ => rfl) ?_ ?_
  · intro _
    refine ⟨hcnt.extra, hcnt.pinged, hcnt.fresh, fun hb hp hm hw _ => Or.inr ?_, (Bool.noConfusion ·)⟩
    exact (hcnt.dedicated hb hp hm hw rfl).resolve_left (by rw [hprog]; decide)
  · have hle := h.le
    have hone := weight_le_one (.top (some r.id)) { r with inProgress := r.waiting }
    have hpings : (Worker.top (some r.id) : Worker C).pings.toNat +
      (Worker.top (some r.id) : Worker C).creates.toNat =
      (Worker.top none : Worker C).pings.toNat + (Worker.top none : Worker C).creates.toNat := rfl
    by_cases hroom : reservedOpenCount s < s.config.max
    · rw [h.max_eq] at hroom
      have hocc := occupied_le_reserved (s := s) (.top none) (by have := h.limits; omega) (Bool.noConfusion ·)
      have hp : (Worker.top none : Worker C).pings.toNat = 0 := rfl
      omega
    · -- the request was counted as opening already, or is only removed from the queue
      have hopen : requestIsOpening { r with inProgress := r.waiting } = requestIsOpening r := by
        simp only [workable, hcnt.extra, hroom, decide_false, Bool.and_false, Bool.or_false, Bool.or_eq_true,
          Bool.not_eq_true'] at hwork
        rcases hwork with (hw | hp) | hrep
        · simp [requestIsOpening, hw, hprog]
        · simp [requestIsOpening, hp]
        · simp [requestIsOpening, hrep]
      have hsame :
          ({ r with inProgress := r.waiting } : Request C).weight (.top (some r.id)) = r.weight (.top none) := by
        simp only [Request.weight, hopen]
        rfl
      omega

private theorem weight_eq_zero (hc : r.conn = none) (h : r.requiresPing = true ∨ wk.posts r.id = true) :
    r.weight wk = 0 := by
  rcases h with h | h <;> simp [Request.weight, requestIsOpening, hc, h]

section Processing

variable (h : CapInv config s (.processing rid)) (hreq : RequestsInv s (.processing rid)) (hk : s.keys.Nodup)

include h hreq hk

theorem pass (hend : PickEnds s rid (.nothing, s)) : CapInv config s (.postProcess rid) := by
  rw [← modifyRequest_self s rid]
  refine h.settle hreq hk rfl (fun _ => rfl) (fun _ => ⟨rfl, rfl, rfl, rfl⟩) (fun r hr hc hrep => ?_) fun r hr => ?_
  · obtain rfl := request?_id hr
    have hmem := List.mem_of_find?_eq_some hr
    cases hend with
    | unknown hr' => cases hr'.symm.trans hr
    | nothing hr' hno =>
      cases hr.symm.trans hr'
      rcases hno with ⟨hp, -⟩ | ⟨-, hn⟩
      · have := (h.counted r hmem).pinged ((hreq r hmem).owned rfl).1.1 hp
        rw [hrep] at this
        cases this
      · simp [Request.needsCreate, hrep] at hn
  · cases hc : r.conn with
    | none => rw [weight_eq_zero hc (Or.inr (by simp [Worker.posts, request?_id hr]))]; exact Nat.zero_le _
    | some conn => simp [Request.weight, Worker.createsFor, hc]

theorem ping (hr : s.request? rid = some r) (hp : r.requiresPing = true) (hc : r.conn = some conn) :
    CapInv config (s.modifyRequest rid Request.emptied) (.pinging rid conn) := by
  obtain rfl := request?_id hr
  have hb := ((hreq r (List.mem_of_find?_eq_some hr)).owned rfl).1.1
  refine h.work (.pinging r.id conn) hk hr (Or.inl rfl)
    (Or.inl rfl) (fun _ => rfl) (fun hcnt => ?_) ?_
  · exact ⟨hcnt.extra, hcnt.pinged, fun hb' => Bool.noConfusion (hb.symm.trans hb'),
      fun _ hp' => Bool.noConfusion (hp.symm.trans hp'), nofun⟩
  · have hw : r.weight (.processing r.id) = 1 := by simp [Request.weight, Worker.createsFor, hc]
    have hw' : r.emptied.weight (.pinging r.id conn) = 0 := weight_eq_zero rfl (Or.inl hp)
    rw [hw, hw']
    simpa [Worker.pings, Worker.creates] using h.le

theorem create (hr : s.request? rid = some r) (hp : r.requiresPing = false) (hn : r.needsCreate = true) :
    CapInv config { s.modifyRequest rid Request.emptied with nextConnId := s.nextConnId + 1 }
      (.creating rid s.nextConnId r.cclass r.isExtra r.conn) := by
  obtain rfl := request?_id hr
  have hmem := List.mem_of_find?_eq_some hr
  have hinv := hreq r hmem
  have hb := (hinv.owned rfl).1.1
  have hmove := h.work (.creating r.id s.nextConnId r.cclass r.isExtra r.conn) (f := Request.emptied) hk hr
    (Or.inl rfl) (Or.inl rfl) (fun _ => rfl) (fun hcnt => ?_) ?_
  · exact hmove.of_requests_eq rfl rfl rfl rfl id (Nat.add_le_add_right hmove.le _)
  · exact ⟨hcnt.extra, hcnt.pinged, fun hb' => Bool.noConfusion (hb.symm.trans hb'),
      fun hb hp hm hw _ => hcnt.dedicated hb hp hm hw rfl, nofun⟩
  · have hw : r.weight (.processing r.id) = 1 := by
      have hopen := opening_of_needsCreate hinv (h.counted r hmem) rfl rfl hp (hinv.owned rfl).2.2 hn
      simp [Request.weight, Worker.createsFor, Worker.posts, hopen]
    have hw' : r.emptied.weight (.creating r.id s.nextConnId r.cclass r.isExtra r.conn) = 0 := by
      simp [Request.weight, Worker.createsFor, Request.emptied]
    rw [hw, hw']
    simpa [Worker.pings, Worker.creates] using h.le

end Processing

theorem pingFailed (h : CapInv config s (.pinging rid conn)) (hreq : RequestsInv s (.pinging rid conn))
    (hk : s.keys.Nodup) : CapInv config s (.postProcess rid) := by
  rw [← modifyRequest_self s rid]
  refine h.settle hreq hk rfl (fun _ => rfl) (fun _ => ⟨rfl, rfl, rfl, rfl⟩) (fun r hr hc hrep => ?_) fun r _ =>
    (weight_le_one _ r).trans (Nat.le_add_left 1 _)
  obtain rfl := request?_id hr
  have hmem := List.mem_of_find?_eq_some hr
  obtain ⟨howned, -, hp, -⟩ := (hreq r hmem).owned rfl
  have := (h.counted r hmem).pinged howned.1 hp
  rw [hrep] at this
  cases this

theorem processed (h : CapInv config s (.postProcess rid)) (hk : s.keys.Nodup) (hr : s.request? rid = some r) :
    CapInv config (s.modifyRequest rid Request.processed) (.top none) := by
  obtain rfl := request?_id hr
  refine h.work (.top none) hk hr (Or.inl rfl) (Or.inr rfl) (fun _ => rfl) (fun hcnt => ?_) ?_
  · refine ⟨hcnt.extra, (Bool.noConfusion ·), fun _ hc he hw hrep => ?_, (Bool.noConfusion ·), (Bool.noConfusion ·)⟩
    by_contra hconn
    have hconn : r.conn = none := by simpa [Request.processed] using hconn
    rcases hcnt.posted (by simp [Worker.posts]) hconn hrep with he' | hw'
    · rw [show r.error = none from he] at he'; cases he'
    · exact Bool.noConfusion (Eq.symm hw |>.trans hw')
  · have hw : r.processed.weight (.top none) ≤ r.weight (.postProcess r.id) := by
      simp only [Request.weight, Request.processed, requestIsOpening, Worker.createsFor, Bool.false_and,
        Bool.false_eq_true, if_false]
      split <;> omega
    have hnone : (Worker.postProcess r.id : Worker C).pings.toNat +
      (Worker.postProcess r.id : Worker C).creates.toNat =
      (Worker.top none : Worker C).pings.toNat + (Worker.top none : Worker C).creates.toNat := rfl
    have hle := h.le
    omega

theorem postCreateConn {result : Except String (PooledConn C)} (h : CapInv config s (.opened connId result))
    (hreq : RequestsInv s (.opened connId result)) (hflight : s.inFlightOpenEffects = [connId]) :
    CapInv config (postCreateConn s connId result) (.top none) := by
  have hidle : CapInv config s (.top none) :=
    h.relocate (fun _ hw => by cases hw) (fun _ => rfl) (fun _ => rfl) rfl rfl
  have hreq' : RequestsInv s (.top none) := hreq.idle rfl rfl
  have hsum := occupied_of_requests_eq (.top none) (show (completeOpenEffect s connId).requests = s.requests from rfl)
  have hstock : (completeOpenEffect s connId).stock + 1 = s.stock := by
    simp [PoolState.stock, PoolState.free, completeOpenEffect, hflight]
  have hle := hidle.le
  have h₁ : CapInv config (completeOpenEffect s connId) (.top none) :=
    hidle.of_requests_eq rfl rfl rfl rfl id (by omega)
  have hroom : occupied (completeOpenEffect s connId) (.top none) + 1 ≤ config.max := by omega
  have hreq₁ : RequestsInv (completeOpenEffect s connId) (.top none) := hreq'.of_requests_eq rfl rfl rfl
  unfold Pool.postCreateConn
  generalize completeOpenEffect s connId = t at h₁ hreq₁ hroom ⊢
  cases result with
  | error message =>
    dsimp only
    split
    · cases hr : t.requests.find? awaitsGrowth with
      | none => rw [modifyFirst_of_find?_eq_none hr]; exact h₁
      | some r =>
        have hcnt := h₁.counted r (List.mem_of_find?_eq_some hr)
        refine h₁.modifyFirst hr (fun _ => rfl) (.of_outcome hcnt.extra rfl (Or.inr rfl) rfl)
          (Nat.add_le_add h₁.le ?_)
        simp only [Request.weight, requestIsOpening, Worker.createsFor, Bool.false_and, Bool.false_eq_true, if_false]
        split <;> omega
    · exact h₁
  | ok conn =>
    dsimp only
    split
    · exact h₁.of_requests_eq rfl rfl rfl rfl id (Nat.add_le_add_right h₁.le _)
    · split
      · rename_i hany
        obtain ⟨r, hr⟩ := Option.isSome_iff_exists.1 ((List.find?_isSome).2 (List.any_eq_true.1 hany))
        generalize hfull : decide (t.config.max ≤ saturatingU32 (activeOpenCount t + 1)) = full at hr ⊢
        obtain ⟨hun, -⟩ := acceptsCreated_iff.1 (List.find?_some hr)
        have hmem := List.mem_of_find?_eq_some hr
        have hcnt := h₁.counted r hmem
        refine h₁.modifyFirst hr (fun r => ?_) ?_ ?_
        · unfold Request.takeCreated
          split <;> rfl
        · unfold Request.takeCreated
          split
          · exact .of_outcome hcnt.extra rfl (Or.inl rfl) rfl
          · refine ⟨hcnt.extra, fun hb hp => ?_, fun _ _ _ _ _ => rfl, fun _ _ _ hw => ?_, (Bool.noConfusion ·)⟩
            · -- a request that waits for its ping holds the connection
              rcases (hreq₁ r hmem).ping hb hp hun.conn with hi | hw
              · exact Bool.noConfusion (hun.inProgress.symm.trans hi)
              · exact Bool.noConfusion (hun.waiting.symm.trans hw)
            · exact Bool.noConfusion (hun.waiting.symm.trans hw)
        · have hone := weight_le_one (.top none) (r.takeCreated conn)
          omega
      · refine h₁.of_requests_eq rfl rfl rfl rfl id ?_
        simp only [PoolState.stock, PoolState.free, List.length_append, List.length_singleton]
        omega

theorem takeOpenEffect (h : CapInv config s wk) : CapInv config (takeOpenEffect s) wk := by
  unfold Pool.takeOpenEffect
  split
  · exact h
  · rename_i effect rest heq
    refine h.of_requests_eq rfl rfl rfl rfl id ?_
    have := h.le
    simp only [PoolState.stock, PoolState.free, heq, List.length_append, List.length_cons, List.length_nil]
    omega

end CapInv

/-! ### Runs that keep the maximum -/

/-- The connections that are open or about to be: free, busy, held by a request, in the worker's hand for a ping,
being created or scheduled. -/
def World.openCount (w : World C) : Nat :=
  w.state.free.length + w.state.busy.length + w.state.requests.countP (·.conn.isSome) + w.worker.pings.toNat +
    (w.worker.creates.toNat + w.state.inFlightOpenEffects.length) + w.state.openEffects.length

/-- The step takes a connection back that the pool will not keep. -/
def discards (w : World C) (a : Action C) : Bool :=
  match a with
  | .dropFromPool _ _ => true
  | _ => a.drains.elim false fun env => w.state.busy.any fun conn =>
      decide (conn.id ∈ recalls w a) && (!usable env w.state.config conn || conn.isPoolExtra)

theorem Draining.discards {a : Action C} {env : Env C} {s : PoolState C} {wk : Worker C} {conn : PooledConn C}
    {i : Nat} (h : Draining w a wk env s) (hi : i ∈ recalls w a) (hc : s.busy.find? (·.id == i) = some conn)
    (hkeep : keepsReturned env { s with busy := s.busy.eraseP (·.id == i) } conn = false) :
    discards w a = true := by
  obtain rfl : conn.id = i := by simpa using List.find?_some hc
  have hdead : (!usable env w.state.config conn || conn.isPoolExtra) = true := by
    rw [keepsReturned, h.config] at hkeep
    cases hu : usable env w.state.config conn <;> simp_all
  unfold Pool.discards
  split
  · rfl
  · rw [h.drains]
    exact List.any_eq_true.2 ⟨conn, h.busy (List.mem_of_find?_eq_some hc), by rw [hdead, decide_eq_true hi]; rfl⟩

/-- The request waits in the queue for a connection of its own class, and the worker has not picked it. -/
def Request.awaitsOwnClass (wk : Worker C) (r : Request C) : Bool :=
  r.bgProcessing && !r.requiresPing && !r.cclassMatches && !wk.posts r.id && !r.inProgress && !r.isReplacing

/-- What keeps the counts right: no setting forces connections beyond the maximum; an acquirer that looks for a
connection while the worker pings one finds no dead one and leaves room for the one that is pinged; none looks while
it has one parked that another could take the place of; no acquirer leaves a request that waits in the queue for a
connection of its own class; and while the worker pings, a pool whose minimum is its maximum keeps every connection
that comes back. -/
def KeepsMaximum (w : World C) (a : Action C) : Prop :=
  (w.worker.pings = true → discards w a = true → w.state.config.min < w.state.config.max) ∧
  match a with
  | .poll env rid => Seeks env w.state w.worker rid
  | .abandon rid => ∀ r ∈ w.state.request? rid, r.awaitsOwnClass w.worker = false
  | .configure (.getmode value) => value ≠ poolGetmodeForceget
  | _ => True

theorem Request.not_awaitsOwnClass {wk : Worker C} {r : Request C} (h : r.awaitsOwnClass wk = false)
    (hb : r.bgProcessing = true) (hp : r.requiresPing = false) (hm : r.cclassMatches = false)
    (hposts : wk.posts r.id = false) : r.inProgress = true ∨ r.isReplacing = true := by
  by_contra hno
  simp only [not_or, Bool.not_eq_true] at hno
  simp [Request.awaitsOwnClass, hb, hp, hm, hposts, hno] at h

/-- Every edit of a step that keeps the counts right keeps within the maximum. -/
theorem capInv_edit {config : PoolConfig} {L : Nat → Prop} {a : Action C} {s t : PoolState C} {wk wk' : Worker C}
    (hshut : ShutInv w) (hok : KeepsMaximum w a) (hw : CapInv config w.state w.worker) (hkey : Keyed s wk)
    (hreq : RequestsInv s wk) (h : CapInv config s wk) (he : Edit L w a s wk (t, wk')) : CapInv config t wk' := by
  obtain ⟨hping, hok⟩ := hok
  rw [hw.min_eq, hw.max_eq] at hping
  have hseek : ∀ {r}, Sought w a wk r → r.conn.isSome = true → ∀ conn, ¬Candidate r w.state conn := by
    intro r hs
    obtain ⟨env, rfl⟩ := hs.poll
    exact Seeks.not_candidate hok hs
  have hscan : ∀ {env r}, Scanning w a wk env r s → wk.pings = true → AllUsable env r s ∧
      (reservedOpenCount s < s.config.max → reservedOpenCount s +
        growth (s.modifyRequest r.id Request.unping) r.wantsNew r.cclass r.cclassMatches < s.config.max) := by
    intro env r hs
    obtain rfl := hs.polled
    exact Seeks.scanning hok hs
  have hfree : ∀ {rid r}, s.request? rid = some r → r.completed = true ∨ r.bgProcessing = false →
    wk.request ≠ some rid := by
    intro rid r hr hdone
    have hinv := hreq r (List.mem_of_find?_eq_some hr)
    rw [← request?_id hr]
    exact hdone.elim hinv.not_owned_of_completed hinv.not_owned
  cases he with
  | drop hl hp =>
    refine (h.leaves hl).dropConn (hreq.leaves hl) (fun hpings => ?_) _
    obtain ⟨env, r, hs, hc, hdead⟩ := hp hpings
    exact Bool.noConfusion (((hscan hs hpings).1.usable _ hc).symm.trans hdead)
  | attach ping hr hl _ hs hcand =>
    refine h.attach hreq hr hl ?_ ping
    by_contra hconn
    exact hseek hs (Option.isSome_iff_ne_none.2 hconn) _ hcand
  | @victim _ conn u _ hr hl =>
    have hocc := occupied_leaves wk hl
    have hle := h.le
    refine h.enlist hreq hr true ((h.leaves hl).of_requests_eq rfl rfl rfl rfl id
      (Nat.add_le_add_right (h.leaves hl).le _)) hl.requests fun _ => ?_
    change occupied u wk < config.max
    omega
  | enlist extra hr _ hf =>
    cases extra with
    | true => exact Bool.noConfusion (h.unforced.symm.trans (hf rfl))
    | false => exact h.enlist hreq hr false h rfl nofun
  | schedule n ho hlt hle hk hp =>
    have hlim := h.limits
    rw [h.min_eq, h.max_eq] at hk
    refine h.schedule (by omega) hlt hle (fun hpings => ?_) (h.cover hreq ho)
    obtain ⟨env, r, hs, hn⟩ := hp hpings
    have hroom := (hscan hs hpings).2
    rw [h.max_eq] at hroom
    omega
  | finish _ hr hc hconn => exact h.handOut hr (hfree hr (Or.inl hc)) hconn
  | lose _ hr hc => exact h.removeRequest hr (hfree hr (Or.inl hc))
  | @abandon rid _ r _ hr hb hs hwk ha =>
    subst hs hwk
    refine h.abandon hr fun hp hm hposts => ?_
    rcases ha with hclosed | rfl
    · have hr' := List.mem_of_find?_eq_some hr
      exact (h.counted r hr').dedicated hb hp hm ((hshut.frozen hclosed).waiting r hr') hposts
    · exact Request.not_awaitsOwnClass (hok r hr) hb hp hm hposts
  | fail _ hr he hb => exact h.fail hreq hr he hb
  | giveUp _ hr hb => exact h.giveUp hr (hfree hr (Or.inr hb))
  | back hc hend hi hp =>
    refine h.returnBusy hreq (fun hkeep hpings => ?_) hc hend
    have hdrain := hp hpings
    exact hping (hdrain.worker ▸ hpings) (hdrain.discards hi hc hkeep)
  | retire hc ha hp =>
    subst ha
    exact (h.unbusy hc).dropConn (hreq.of_requests_eq rfl rfl rfl) (fun hpings => hping (hp hpings ▸ hpings) rfl) _
  | enqueue opts => exact h.enqueueRequest opts
  | configure setting ha =>
    subst ha
    refine h.configure fun value hv => ?_
    subst hv
    exact hok
  | shutdown ho => exact h.shutdown hreq ho
  | pick hp => exact h.pick hkey.keys hp
  | start | healthy | created => exact h.relocate (fun _ hi => hi) (fun _ => rfl) (fun _ => rfl) rfl rfl
  | skip | settle | opened | clean | closed | rest | exit =>
    exact h.relocate nofun (fun _ => rfl) (fun _ => rfl) rfl rfl
  | pass hend => exact h.pass hreq hkey.keys hend
  | ping hr hp hc => exact h.ping hreq hkey.keys hr hp hc
  | create hr hp hn => exact h.create hreq hkey.keys hr hp hn
  | dead => exact h.pingFailed hreq hkey.keys
  | restore =>
    exact h.settle hreq hkey.keys rfl (fun _ => rfl) (fun _ => ⟨rfl, rfl, rfl, rfl⟩) (fun _ _ hc => by cases hc)
      fun _ _ => (weight_le_one _ _).trans (Nat.le_add_left 1 _)
  | replace => exact (h.dropConn hreq nofun _).relocate (fun _ hi => hi) (fun _ => rfl) (fun _ => rfl) rfl rfl
  | @strand rid _ hr =>
    have hgone : CapInv config s (.postProcess rid) :=
      h.unlisted hr rfl (Or.inl rfl) (Nat.zero_le _)
    exact hgone.of_requests_eq rfl rfl rfl rfl id (Nat.add_le_add_right hgone.le _)
  | deliver | report =>
    refine h.settle hreq hkey.keys rfl (fun _ => rfl) (fun _ => ⟨rfl, rfl, rfl, rfl⟩) (fun _ _ hc _ => ?_)
      fun _ _ => (weight_le_one _ _).trans (Nat.le_add_left 1 _)
    first | exact Or.inl rfl | cases hc
  | gone hr => exact h.unlisted hr rfl (Or.inr rfl) (Nat.le_refl _)
  | processed hr => exact h.processed hkey.keys hr
  | @reject rid r hr =>
    have hp := h.processed hkey.keys hr
    have hr' : (s.modifyRequest rid Request.processed).request? rid = some r.processed :=
      request?_modifyRequest (fun _ => rfl) hr
    have hgive := hp.giveUp hr' nofun
    rwa [removeRequest_modifyRequest (f := Request.processed) fun _ => rfl] at hgive
  | effect => exact h.takeOpenEffect.relocate nofun (fun _ => rfl) (fun _ => rfl) rfl rfl
  | grow => exact h.postCreateConn hreq hkey.inFlight
  | @close conn =>
    have hclosing : CapInv config s (.closing conn) := h.relocate nofun (fun _ => rfl) (fun _ => rfl) rfl rfl
    exact hclosing.of_requests_eq rfl rfl rfl rfl id (Nat.add_le_add_right hclosing.le _)

/-- A step that keeps the counts right keeps within the maximum. -/
theorem capInv_step {config : PoolConfig} {w' : World C} {a : Action C} (hinv : Inv w) (hshut : ShutInv w)
    (hreq : RequestsInv w.state w.worker) (h : CapInv config w.state w.worker) (hok : KeepsMaximum w a)
    (hs : step w a = some w') : CapInv config w'.state w'.worker :=
  ((edits_step hs).keep hinv.core.keyed hreq h fun _ _ _ _ => capInv_edit hshut hok h).2

private theorem capInv_start {config : PoolConfig} (hlim : config.min ≤ config.max) (hmax : config.max ≤ u32Max)
    (hmode : config.getmode ≠ poolGetmodeForceget) :
    CapInv config (World.start config : World C).state (World.start config : World C).worker where
  limits := ⟨hlim, hmax⟩
  unforced := by simpa [World.start, PoolState.start, scheduleOpenEffects] using hmode
  min_eq := rfl
  max_eq := rfl
  present _ _ := nofun
  counted r hr := by cases hr
  le := by
    simpa [occupied, weights, PoolState.stock, PoolState.free, World.start, PoolState.start, scheduleOpenEffects,
      Worker.pings, Worker.creates] using hlim

/-- Everything the pool has open or is about to open takes a place. -/
theorem openCount_le_occupied (hreq : RequestsInv w.state w.worker) : w.openCount ≤ occupied w.state w.worker := by
  have hslots : w.state.requests.countP (·.conn.isSome) ≤ weights w.state w.worker := by
    rw [countP_eq_sum]
    refine List.sum_le_sum fun r hr => ?_
    cases hc : r.conn with
    | none => exact Nat.zero_le _
    | some conn =>
      -- a request for which the worker creates has an empty slot
      have hfor : w.worker.createsFor r.id = false := by
        refine Bool.eq_false_iff.2 fun hfor => ?_
        have hstage := ((hreq r hr).owned (Worker.creates_of_createsFor hfor).2).2.2
        cases hw : w.worker with
        | creating | createdFor => rw [hw] at hstage; exact absurd (hstage.2.1.symm.trans hc) nofun
        | _ => rw [hw] at hfor; cases hfor
      simp [Request.weight, hfor, hc]
  unfold World.openCount occupied PoolState.stock
  omega

instance (r : Request C) (s : PoolState C) : Decidable (Exhausted r s) :=
  decidable_of_iff ((r.wantsNew = false → ∀ c ∈ s.freeUsed, classMatches r.cclass c = false) ∧
      (r.cclassMatches = true → s.freeNew = []))
    ⟨fun h => ⟨h.1, h.2⟩, fun h => ⟨h.used, h.new⟩⟩

instance (env : Env C) (r : Request C) (s : PoolState C) : Decidable (AllUsable env r s) :=
  decidable_of_iff
    ((r.wantsNew = false → ∀ c ∈ s.freeUsed, classMatches r.cclass c = true → usable env s.config c = true) ∧
      (r.cclassMatches = true → ∀ c ∈ s.freeNew, usable env s.config c = true))
    ⟨fun h => ⟨h.1, h.2⟩, fun h => ⟨h.used, h.new⟩⟩

instance (env : Env C) (s : PoolState C) (wk : Worker C) (rid : Nat) : Decidable (Seeks env s wk rid) :=
  inferInstanceAs (Decidable (∀ r ∈ s.request? rid, _ = true → _ = true → _ = false → _ = false →
    (_ = true → AllUsable env r s ∧ (_ < _ → _ < _)) ∧ (_ = true → Exhausted r s)))

instance (w : World C) (a : Action C) : Decidable (KeepsMaximum w a) :=
  match a with
  | .poll env rid => inferInstanceAs (Decidable ((_ = true → _ = true → _ < _) ∧ Seeks env w.state w.worker rid))
  | .abandon rid =>
    inferInstanceAs (Decidable ((_ = true → _ = true → _ < _) ∧ ∀ r ∈ w.state.request? rid, _ = false))
  | .configure (.getmode value) =>
    inferInstanceAs (Decidable ((_ = true → _ = true → _ < _) ∧ value ≠ poolGetmodeForceget))
  | .configure (.waitTimeoutMs _) | .configure (.timeoutSecs _) | .configure (.maxLifetimeSessionSecs _)
  | .configure (.pingIntervalSecs _) | .acquire _ _ | .release _ _ | .dropFromPool _ _ | .guardDrop _ | .drain _
  | .close _ _ _ | .closeReturn | .work _ => inferInstanceAs (Decidable ((_ = true → _ = true → _ < _) ∧ True))

/-- The only connection of a pool is pinged for one acquirer, handed out and released to the next, and the pool is
full all the while. -/
def pingedTurnsRun : List (Action Unit) :=
  List.replicate 4 (.work .calm) ++ [.acquire .calm {}, .poll .calm 1] ++ List.replicate 5 (.work .calm) ++
    [.poll .calm 1, .acquire .calm {}, .poll .calm 2, .release .calm 1, .poll .calm 2]

/-- The worker pings the only connection for one acquirer, and a second acquirer looks for a connection meanwhile. -/
def pollDuringPingRun : List (Action Unit) :=
  List.replicate 4 (.work .calm) ++ [.acquire .calm {}, .poll .calm 1] ++ List.replicate 2 (.work .calm) ++
    [.acquire .calm {}, .poll .calm 2]

end OracleThin.Pool
