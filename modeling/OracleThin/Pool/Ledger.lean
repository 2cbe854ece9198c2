import OracleThin.Pool.Engine

/-!
# Where the connection ids are

`held s` is the multiset of the connection ids in the containers and request slots of the locked state.  `Moves s s'
gain lost` is what a function of the engine may do to it: the ids `gain` come in, the ids `lost` disappear, fresh ids
may be reserved by open effects, and no request is added or renumbered.  There is one `moves` lemma for each function.
-/

namespace OracleThin.Pool

open Lib

variable {C : Type}

/-- The ids of a list of connections. -/
def ids (l : List (PooledConn C)) : Multiset Nat := (l.map PooledConn.id : List Nat)

@[simp] theorem ids_nil : ids ([] : List (PooledConn C)) = 0 := rfl

@[simp] theorem ids_cons (c : PooledConn C) (l : List (PooledConn C)) : ids (c :: l) = {c.id} + ids l := rfl

@[simp] theorem ids_append (l₁ l₂ : List (PooledConn C)) : ids (l₁ ++ l₂) = ids l₁ + ids l₂ := by
  simp [ids]

theorem mem_ids {l : List (PooledConn C)} {i : Nat} : i ∈ ids l ↔ ∃ c ∈ l, c.id = i := by
  simp [ids]

theorem ids_dropLast {l : List (PooledConn C)} {c : PooledConn C} (h : l.getLast? = some c) :
    ids l = {c.id} + ids l.dropLast := by
  conv => lhs; rw [← List.dropLast_append_getLast? c h]
  rw [ids_append, ids_cons, ids_nil, add_zero, add_comm]

theorem ids_eraseP {l : List (PooledConn C)} {p : PooledConn C → Bool} {c : PooledConn C} (h : l.find? p = some c) :
    ids l = {c.id} + ids (l.eraseP p) := by
  have hsum : ∀ l : List (PooledConn C), (l.map fun c => ({c.id} : Multiset Nat)).sum = ids l := by
    intro l
    induction l with
    | nil => rfl
    | cons c l ih => rw [List.map_cons, List.sum_cons, ih, ids_cons]
  have := sum_map_eraseP (fun c => ({c.id} : Multiset Nat)) h
  rw [hsum, hsum] at this
  rw [← this, add_comm]

/-- The id in the connection slot of a request. -/
def Request.slot (r : Request C) : Multiset Nat := ids r.conn.toList

/-- The ids in the connection slots of the requests. -/
def slots (rs : List (Request C)) : Multiset Nat := (rs.map Request.slot).sum

@[simp] theorem slots_nil : slots ([] : List (Request C)) = 0 := rfl

@[simp] theorem slots_cons (r : Request C) (rs : List (Request C)) : slots (r :: rs) = r.slot + slots rs := by
  simp [slots]

@[simp] theorem slots_append (l₁ l₂ : List (Request C)) : slots (l₁ ++ l₂) = slots l₁ + slots l₂ := by
  simp [slots]

theorem slot_eq_zero {r : Request C} : r.slot = 0 ↔ r.conn = none := by
  cases h : r.conn <;> simp [Request.slot, h, ids]

theorem ids_filterMap_conn (rs : List (Request C)) : ids (rs.filterMap (·.conn)) = slots rs := by
  induction rs with
  | nil => rfl
  | cons r rs ih => cases h : r.conn <;> simp [h, ih, Request.slot]

theorem mem_slots {rs : List (Request C)} {i : Nat} : i ∈ slots rs ↔ ∃ r ∈ rs, ∃ c, r.conn = some c ∧ c.id = i := by
  rw [← ids_filterMap_conn, mem_ids]
  simp only [List.mem_filterMap]
  constructor
  · rintro ⟨c, ⟨r, hr, hc⟩, hi⟩; exact ⟨r, hr, c, hc, hi⟩
  · rintro ⟨r, hr, c, hc, hi⟩; exact ⟨c, ⟨r, hr, hc⟩, hi⟩

namespace PoolState

/-- The ids in all containers and request slots. -/
def held (s : PoolState C) : Multiset Nat :=
  ids s.freeNew + ids s.freeUsed + ids s.busy + ids s.toDrop + slots s.requests

/-- The identifiers of the queued requests. -/
def keys (s : PoolState C) : List Nat := s.requests.map Request.id

end PoolState

/-- What a function of the engine may do to the ids: `gain` comes in, `lost` disappears. -/
structure Moves (s s' : PoolState C) (gain lost : Multiset Nat) : Prop where
  held : s'.held + lost = s.held + gain
  fresh : ∃ n, s'.nextConnId = s.nextConnId + n ∧ s'.openEffects = s.openEffects ++ List.range' s.nextConnId n
  inFlight : s'.inFlightOpenEffects = s.inFlightOpenEffects
  keys : s'.keys.Sublist s.keys
  nextRequestId : s'.nextRequestId = s.nextRequestId
  isOpen : s'.isOpen = s.isOpen
  config : s'.config = s.config

namespace Moves

variable {s s' s'' : PoolState C} {g g' l l' : Multiset Nat}

theorem refl (s : PoolState C) : Moves s s 0 0 :=
  ⟨rfl, ⟨0, by simp⟩, rfl, List.Sublist.refl _, rfl, rfl, rfl⟩

theorem cast (h : Moves s s' g l) (hg : g = g') (hl : l = l') : Moves s s' g' l' := by
  subst hg hl; exact h

theorem trans (h : Moves s s' g l) (h' : Moves s' s'' g' l') : Moves s s'' (g + g') (l + l') where
  held := by
    calc s''.held + (l + l') = s''.held + l' + l := by abel
      _ = s'.held + l + g' := by rw [h'.held]; abel
      _ = s.held + (g + g') := by rw [h.held]; abel
  fresh := by
    obtain ⟨n, hn, hn'⟩ := h.fresh
    obtain ⟨m, hm, hm'⟩ := h'.fresh
    refine ⟨n + m, by omega, ?_⟩
    rw [hm', hn', hn, List.append_assoc, List.range'_append_1]
  inFlight := h'.inFlight.trans h.inFlight
  keys := h'.keys.trans h.keys
  nextRequestId := h'.nextRequestId.trans h.nextRequestId
  isOpen := h'.isOpen.trans h.isOpen
  config := h'.config.trans h.config

end Moves

/-! ### Requests -/

section Requests

variable {s : PoolState C} {rid : Nat} {r : Request C} {f : Request C → Request C}

variable {p : Request C → Bool}

theorem keys_modifyFirst (hf : ∀ r, (f r).id = r.id) (l : List (Request C)) :
    (modifyFirst p f l).map Request.id = l.map Request.id :=
  map_modifyFirst_of_eq _ hf

theorem moves_modifyFirst (hid : ∀ r, (f r).id = r.id) (hconn : ∀ r, p r = true → (f r).conn = r.conn) :
    Moves s { s with requests := modifyFirst p f s.requests } 0 0 where
  held := by
    have : slots (modifyFirst p f s.requests) = slots s.requests :=
      sum_map_modifyFirst_of_eq _ fun r hr => by rw [Request.slot, Request.slot, hconn r hr]
    simp [PoolState.held, this]
  fresh := ⟨0, by simp⟩
  inFlight := rfl
  keys := by rw [PoolState.keys, keys_modifyFirst hid]; exact List.Sublist.refl _
  nextRequestId := rfl
  isOpen := rfl
  config := rfl

/-- Changing the first request satisfying `p` exchanges what its slot held for what it holds afterwards. -/
theorem moves_modifyFirst_slot (hid : ∀ r, (f r).id = r.id) (hr : s.requests.find? p = some r) :
    Moves s { s with requests := modifyFirst p f s.requests } (f r).slot r.slot where
  held := by
    have h := sum_map_modifyFirst (f := f) Request.slot hr
    change ids s.freeNew + ids s.freeUsed + ids s.busy + ids s.toDrop + slots (modifyFirst p f s.requests) + r.slot =
      _
    rw [add_assoc, show slots (modifyFirst p f s.requests) + r.slot = slots s.requests + (f r).slot from h,
      ← add_assoc]
    rfl
  fresh := ⟨0, by simp⟩
  inFlight := rfl
  keys := by rw [PoolState.keys, keys_modifyFirst hid]; exact List.Sublist.refl _
  nextRequestId := rfl
  isOpen := rfl
  config := rfl

theorem moves_removeRequest (hr : s.request? rid = some r) : Moves s (s.removeRequest rid) 0 r.slot where
  held := by
    have h := sum_map_eraseP Request.slot hr
    change ids s.freeNew + ids s.freeUsed + ids s.busy + ids s.toDrop + slots (s.requests.eraseP _) + r.slot = _
    rw [add_assoc, show slots (s.requests.eraseP _) + r.slot = slots s.requests from h, add_zero]
    rfl
  fresh := ⟨0, by simp [PoolState.removeRequest]⟩
  inFlight := rfl
  keys := List.eraseP_sublist.map _
  nextRequestId := rfl
  isOpen := rfl
  config := rfl

theorem moves_modifyRequest (hid : ∀ r, (f r).id = r.id) (hconn : ∀ r, (f r).conn = r.conn) :
    Moves s (s.modifyRequest rid f) 0 0 :=
  moves_modifyFirst hid fun r _ => hconn r

theorem moves_modifyRequest_slot (hid : ∀ r, (f r).id = r.id) (hr : s.request? rid = some r) :
    Moves s (s.modifyRequest rid f) (f r).slot r.slot :=
  moves_modifyFirst_slot hid hr

theorem request?_modifyRequest (hid : ∀ r, (f r).id = r.id) (hr : s.request? rid = some r) :
    (s.modifyRequest rid f).request? rid = some (f r) := by
  have h : (s.modifyRequest rid f).request? rid = (s.request? rid).map f :=
    find?_modifyFirst_self fun r => by rw [hid]
  rw [h, hr]
  rfl

theorem request?_id (hr : s.request? rid = some r) : r.id = rid := by
  simpa using List.find?_some hr

/-- With distinct identifiers, the request with a given identifier is the one `request_position` finds. -/
theorem request?_eq_some_iff (hk : s.keys.Nodup) : s.request? rid = some r ↔ r ∈ s.requests ∧ r.id = rid := by
  constructor
  · intro h
    exact ⟨List.mem_of_find?_eq_some h, request?_id h⟩
  · rintro ⟨hr, rfl⟩
    unfold PoolState.keys at hk
    unfold PoolState.request?
    generalize s.requests = l at hr hk
    induction l with
    | nil => cases hr
    | cons x xs ih =>
      rw [List.map_cons, List.nodup_cons] at hk
      rw [List.find?_cons]
      rcases List.mem_cons.1 hr with rfl | hr
      · simp
      · have hne : (x.id == r.id) = false := by
          simp only [beq_eq_false_iff_ne, ne_eq]
          intro he
          exact hk.1 (List.mem_map.2 ⟨r, hr, he.symm⟩)
        rw [hne]
        exact ih hr hk.2

end Requests

/-! ### Containers -/

theorem moves_scheduleOpenEffects (s : PoolState C) (n : Nat) : Moves s (scheduleOpenEffects s n) 0 0 :=
  ⟨rfl, ⟨n, rfl, rfl⟩, rfl, List.Sublist.refl _, rfl, rfl, rfl⟩

private theorem moves_ensureMinConnections (s : PoolState C) : Moves s (ensureMinConnections s) 0 0 := by
  unfold ensureMinConnections
  split
  · exact moves_scheduleOpenEffects s _
  · exact Moves.refl s

/-- A change of the four containers is a move when the ids add up. -/
theorem moves_containers {s : PoolState C} {new used busy drop : List (PooledConn C)} {gain lost : Multiset Nat}
    (h : ids new + ids used + ids busy + ids drop + lost =
      ids s.freeNew + ids s.freeUsed + ids s.busy + ids s.toDrop + gain) :
    Moves s { s with freeNew := new, freeUsed := used, busy := busy, toDrop := drop } gain lost where
  held := by
    change ids new + ids used + ids busy + ids drop + slots s.requests + lost = _
    rw [add_right_comm, h, add_right_comm]
    rfl
  fresh := ⟨0, by simp⟩
  inFlight := rfl
  keys := List.Sublist.refl _
  nextRequestId := rfl
  isOpen := rfl
  config := rfl

theorem moves_pushToDrop (s : PoolState C) (c : PooledConn C) : Moves s (pushToDrop s c) {c.id} 0 :=
  moves_containers (by simp [add_assoc])

theorem moves_dropConn (s : PoolState C) (c : PooledConn C) : Moves s (dropConn s c) {c.id} 0 :=
  ((moves_pushToDrop s c).trans (moves_ensureMinConnections _)).cast (add_zero _) (add_zero _)

theorem moves_pushFreeNew (s : PoolState C) (c : PooledConn C) :
    Moves s { s with freeNew := s.freeNew ++ [c] } {c.id} 0 :=
  moves_containers (by simp; abel)

theorem moves_pushFreeUsed (s : PoolState C) (c : PooledConn C) :
    Moves s { s with freeUsed := s.freeUsed ++ [c] } {c.id} 0 :=
  moves_containers (by simp; abel)

theorem moves_reject (s : PoolState C) (slot : Option (PooledConn C)) :
    Moves s (reject s slot) (ids slot.toList) 0 := by
  cases slot with
  | none => exact Moves.refl s
  | some c =>
    have hc : ids (some c).toList = {c.id} := by simp
    simp only [reject]
    split
    · exact moves_pushToDrop s _
    · split
      · exact moves_pushToDrop s _
      · split
        · exact moves_pushFreeNew s c
        · exact moves_pushFreeUsed s c

theorem Moves.cancel {s s' : PoolState C} {a g l : Multiset Nat} (h : Moves s s' (a + g) (a + l)) : Moves s s' g l :=
  { h with
    held := by
      have := h.held
      rw [add_left_comm, add_left_comm s.held] at this
      exact add_left_cancel this }

theorem moves_remove_reject {s : PoolState C} {rid : Nat} {r : Request C} (hr : s.request? rid = some r) :
    Moves s (reject (s.removeRequest rid) r.conn) 0 0 := by
  have h := (moves_removeRequest hr).trans (moves_reject _ r.conn)
  exact Moves.cancel (h.cast (add_comm _ _) rfl)

end OracleThin.Pool
