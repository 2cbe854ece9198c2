import OracleThin.Pool.Ownership

/-!
# A closed pool drains

Once the pool is closed its free lists and its busy list stay empty, nobody waits any more, and a connection can only
sit in the slot of the request the worker is about to finish (`Frozen`).  When the worker exits, the drop queue is
empty too, so no connection is left in the pool.
-/

namespace OracleThin.Pool

open Lib

variable {C : Type} {s s' : PoolState C} {w w' : World C}

/-- The request whose slot the worker may have filled. -/
def Worker.filling : Worker C → Option Nat
  | .postProcess requestId => some requestId
  | _ => none

/-- A closed pool: only the drop queue and the slot of the request `filling` may hold a connection. -/
structure Frozen (s : PoolState C) (filling : Option Nat) : Prop where
  isOpen : s.isOpen = false
  freeNew : s.freeNew = []
  freeUsed : s.freeUsed = []
  busy : s.busy = []
  waiting : ∀ r ∈ s.requests, r.waiting = false
  slot : ∀ r ∈ s.requests, r.conn ≠ none → filling = some r.id

variable {filling : Option Nat}

theorem Frozen.held (h : Frozen s filling) : s.held = ids s.toDrop + slots s.requests := by
  simp [PoolState.held, h.freeNew, h.freeUsed, h.busy]

theorem Frozen.slots_eq_zero (h : Frozen s none) : slots s.requests = 0 := by
  rw [Multiset.eq_zero_iff_forall_notMem]
  intro i hi
  obtain ⟨r, hr, c, hc, -⟩ := mem_slots.1 hi
  have := h.slot r hr (by rw [hc]; simp)
  cases this

/-- A section that only takes requests away, or changes them without filling a slot. -/
theorem Frozen.of_requests (h : Frozen s filling) (hopen : s'.isOpen = s.isOpen)
    (hnew : s'.freeNew = s.freeNew) (hused : s'.freeUsed = s.freeUsed) (hbusy : s'.busy = s.busy)
    (hreq : ∀ r' ∈ s'.requests, ∃ r ∈ s.requests, r.id = r'.id ∧ (r.waiting = false → r'.waiting = false) ∧
      (r.conn = none → r'.conn = none)) : Frozen s' filling where
  isOpen := hopen.trans h.isOpen
  freeNew := hnew.trans h.freeNew
  freeUsed := hused.trans h.freeUsed
  busy := hbusy.trans h.busy
  waiting r' hr' := by
    obtain ⟨r, hr, -, hw, -⟩ := hreq r' hr'
    exact hw (h.waiting r hr)
  slot r' hr' hc := by
    obtain ⟨r, hr, hid, -, hn⟩ := hreq r' hr'
    rw [← hid]
    exact h.slot r hr fun hnone => hc (hn hnone)

theorem Frozen.mark (h : Frozen s filling) {p : Request C → Bool} {f : Request C → Request C}
    (hid : ∀ r, (f r).id = r.id) (hwait : ∀ r, r.waiting = false → (f r).waiting = false)
    (hconn : ∀ r, r.conn = none → (f r).conn = none) :
    Frozen { s with requests := modifyFirst p f s.requests } filling := by
  refine h.of_requests rfl rfl rfl rfl fun r' hr' => ?_
  rcases mem_modifyFirst hr' with h | ⟨r, hr, rfl⟩
  · exact ⟨r', h, rfl, id, id⟩
  · exact ⟨r, List.mem_of_find?_eq_some hr, (hid r).symm, hwait r, hconn r⟩

theorem Frozen.same (h : Frozen s filling) (hopen : s'.isOpen = s.isOpen)
    (hnew : s'.freeNew = s.freeNew) (hused : s'.freeUsed = s.freeUsed) (hbusy : s'.busy = s.busy)
    (hreq : s'.requests = s.requests) : Frozen s' filling :=
  h.of_requests hopen hnew hused hbusy fun r hr => ⟨r, by rw [← hreq]; exact hr, rfl, id, id⟩

private theorem frozen_requestWorkerShutdownLocked (s : PoolState C) :
    Frozen (requestWorkerShutdownLocked s) none where
  isOpen := rfl
  freeNew := rfl
  freeUsed := rfl
  busy := rfl
  waiting r hr := by
    simp only [requestWorkerShutdownLocked, List.mem_map] at hr
    obtain ⟨r₀, -, rfl⟩ := hr
    rfl
  slot r hr hc := by
    simp only [requestWorkerShutdownLocked, List.mem_map] at hr
    obtain ⟨r₀, -, rfl⟩ := hr
    exact absurd rfl hc

private theorem dropConn_closed (h : s.isOpen = false) (c : PooledConn C) : dropConn s c = pushToDrop s c := by
  simp [dropConn, ensureMinConnections, pushToDrop, h]

theorem Frozen.pushToDrop (h : Frozen s filling) (c : PooledConn C) : Frozen (pushToDrop s c) filling :=
  { h with }

theorem Frozen.fill {rid : Nat} {f : Request C → Request C} (h : Frozen s none) (hid : ∀ r, (f r).id = r.id)
    (hwait : ∀ r, (f r).waiting = r.waiting) : Frozen (s.modifyRequest rid f) (some rid) where
  __ := h
  waiting r hr := by
    rcases mem_modifyFirst hr with hr | ⟨r₀, hr₀, rfl⟩
    · exact h.waiting r hr
    · rw [hwait]; exact h.waiting r₀ (List.mem_of_find?_eq_some hr₀)
  slot r hr hc := by
    rcases mem_modifyFirst hr with hr | ⟨r₀, hr₀, rfl⟩
    · exact absurd (h.slot r hr hc) (by simp)
    · rw [hid, request?_id hr₀]

theorem Frozen.weaken (h : Frozen s none) (filling : Option Nat) : Frozen s filling :=
  { h with slot := fun r hr hc => absurd (h.slot r hr hc) (by simp) }

theorem keys_removeRequest (s : PoolState C) (rid : Nat) : (s.removeRequest rid).keys = s.keys.erase rid := by
  rw [PoolState.keys, PoolState.keys, List.erase_eq_eraseP', List.eraseP_map]
  rfl

theorem Frozen.remove {rid : Nat} (hk : s.keys.Nodup) (h : Frozen s (some rid)) :
    Frozen (s.removeRequest rid) none where
  __ := h
  waiting r hr := h.waiting r (List.mem_of_mem_eraseP hr)
  slot r hr hc := by
    have hid : rid = r.id := Option.some.inj (h.slot r (List.mem_of_mem_eraseP hr) hc)
    have hmem : r.id ∈ (s.removeRequest rid).keys := List.mem_map.2 ⟨r, hr, rfl⟩
    rw [keys_removeRequest, hid] at hmem
    exact absurd hmem hk.not_mem_erase

/-- A slot of a closed pool that does not belong to the worker is empty. -/
theorem Frozen.conn_eq_none {wk : Worker C} {r : Request C} (h : Frozen s wk.filling) (hr : r ∈ s.requests)
    (hown : wk.request ≠ some r.id) : r.conn = none := by
  by_contra hne
  have hfill := h.slot r hr hne
  cases wk <;> first | exact hown hfill | cases hfill

/-! ### Edits of a closed pool -/

section Edit

variable {L : Nat → Prop} {w : World C} {a : Action C} {wk wk' : Worker C}

theorem Frozen.not_leaves {conn : PooledConn C} (h : Frozen s filling) (hl : Leaves s conn s') : False := by
  cases hl with
  | used hs => simp [h.freeUsed] at hs
  | new hs => simp [h.freeNew] at hs

/-- No edit puts anything but the worker's connection into a closed pool, and without a worker the drop queue
stays. -/
theorem Frozen.edit (h : Frozen s wk.filling) (hkey : Keyed s wk) (hreq : RequestsInv s wk)
    (he : Edit L w a s wk (s', wk')) :
    Frozen s' wk'.filling ∧ (wk = .exited → wk' = .exited ∧ s'.toDrop = s.toDrop) := by
  have hclosed : ∀ {r : Request C}, ¬Fresh s r := fun hr => by have := hr.isOpen; rw [h.isOpen] at this; cases this
  have hidle : ∀ connId, s.busy.find? (·.id == connId) = none := fun connId => by rw [h.busy]; rfl
  cases he with
  | drop hl => exact (h.not_leaves hl).elim
  | attach _ hr | victim hr | enlist _ hr => exact (hclosed hr).elim
  | schedule => exact ⟨h.same rfl rfl rfl rfl rfl, fun hw => ⟨hw, rfl⟩⟩
  | finish _ hr hc hconn =>
    have hmem := List.mem_of_find?_eq_some hr
    rw [h.conn_eq_none hmem ((hreq _ hmem).not_owned_of_completed hc)] at hconn
    cases hconn
  | lose => exact ⟨h.of_requests rfl rfl rfl rfl fun r hr => ⟨r, List.mem_of_mem_eraseP hr, rfl, id, id⟩,
      fun hw => ⟨hw, rfl⟩⟩
  | abandon | fail => exact ⟨h.mark (fun _ => rfl) (fun _ _ => rfl) fun _ hn => hn, fun hw => ⟨hw, rfl⟩⟩
  | giveUp _ hr hb =>
    rw [h.conn_eq_none (List.mem_of_find?_eq_some hr) ((hreq _ (List.mem_of_find?_eq_some hr)).not_owned hb)]
    exact ⟨h.of_requests rfl rfl rfl rfl fun r hr => ⟨r, List.mem_of_mem_eraseP hr, rfl, id, id⟩, fun hw => ⟨hw, rfl⟩⟩
  | back hc | retire hc => rw [hidle] at hc; cases hc
  | enqueue opts => rw [enqueueRequest, h.isOpen]; exact ⟨h, fun hw => ⟨hw, rfl⟩⟩
  | configure setting =>
    cases setting with
    | getmode => rw [Setting.apply]; split <;> exact ⟨h.same rfl rfl rfl rfl rfl, fun hw => ⟨hw, rfl⟩⟩
    | _ => exact ⟨h.same rfl rfl rfl rfl rfl, fun hw => ⟨hw, rfl⟩⟩
  | shutdown ho => rw [h.isOpen] at ho; cases ho
  | pick => exact ⟨h.mark (fun _ => rfl) (fun _ hw => hw) fun _ hn => hn, by simp⟩
  | start | skip | healthy | created | settle | opened | clean | closed | rest | exit => exact ⟨h, by simp⟩
  | pass | dead => exact ⟨h.weaken _, by simp⟩
  | ping => exact ⟨h.mark (fun _ => rfl) (fun _ hw => hw) fun _ _ => rfl, by simp⟩
  | @create rid =>
    have hmark : Frozen (s.modifyRequest rid Request.emptied) none :=
      h.mark (fun _ => rfl) (fun _ hw => hw) fun _ _ => rfl
    exact ⟨hmark.same rfl rfl rfl rfl rfl, by simp⟩
  | restore | deliver | report => exact ⟨h.fill (fun _ => rfl) fun _ => rfl, by simp⟩
  | replace => rw [dropConn_closed h.isOpen]; exact ⟨h.pushToDrop _, by simp⟩
  | strand => exact ⟨(h.pushToDrop _).weaken _, by simp⟩
  | gone hr =>
    refine ⟨{ h with slot := fun r hmem hc => ?_ }, by simp⟩
    rw [(request?_eq_some_iff hkey.keys).2 ⟨hmem, (Option.some.inj (h.slot r hmem hc)).symm⟩] at hr
    cases hr
  | processed hr hw => exact Bool.noConfusion (hw.symm.trans (h.waiting _ (List.mem_of_find?_eq_some hr)))
  | @reject rid r =>
    have hrem := h.remove hkey.keys
    cases r.conn with
    | none => exact ⟨hrem, by simp⟩
    | some conn =>
      rw [reject, hrem.isOpen]
      exact ⟨hrem.pushToDrop _, by simp⟩
  | effect => unfold takeOpenEffect; split <;> exact ⟨h.same rfl rfl rfl rfl rfl, by simp⟩
  | @grow connId result =>
    have hdone : Frozen (completeOpenEffect s connId) none := h.same rfl rfl rfl rfl rfl
    unfold postCreateConn
    dsimp only
    rw [hdone.isOpen]
    cases result with
    | error => exact ⟨hdone, by simp⟩
    | ok conn => exact ⟨hdone.pushToDrop conn, by simp⟩
  | close => exact ⟨h.same rfl rfl rfl rfl rfl, by simp⟩

end Edit

/-! ### Steps -/

/-- What is known of a closed pool. -/
structure ShutInv (w : World C) : Prop where
  reaperStop : w.reaperStop = true → w.state.isOpen = false
  stopping : w.stopping = true → w.state.isOpen = false
  frozen : w.state.isOpen = false → Frozen w.state w.worker.filling
  exited : w.worker = .exited → w.state.isOpen = false ∧ w.state.toDrop = []
  finished : w.closeFinished = true → w.worker = .exited

/-- How a step may change the flags, and where the worker can come to its end. -/
structure Proceeds (w w' : World C) : Prop where
  reaperStop : w'.reaperStop = true → w.reaperStop = true ∨ w'.state.isOpen = false
  stopping : w'.stopping = true → w.stopping = true ∨ w.reaperStop = true
  exited : w'.worker = .exited → w.worker = .exited ∨
    w'.state.toDrop = [] ∧ (w'.state.isOpen = false ∨ w.stopping = true)
  finished : w'.closeFinished = true → w.closeFinished = true ∨ w'.worker = .exited

theorem Proceeds.of_eq (hstop : w'.reaperStop = w.reaperStop) (hstopping : w'.stopping = w.stopping)
    (hworker : w'.worker = w.worker ∨ w'.worker ≠ .exited) (hfin : w'.closeFinished = w.closeFinished) :
    Proceeds w w' where
  reaperStop h := Or.inl (hstop.symm.trans h)
  stopping h := Or.inl (hstopping.symm.trans h)
  exited h := Or.inl (hworker.elim (fun heq => heq.symm.trans h) fun hne => absurd h hne)
  finished h := Or.inl (hfin.symm.trans h)

private theorem proceeds_workStep {answers : Answers C} (hs : workStep answers w = some w') : Proceeds w w' := by
  unfold workStep at hs
  cases hw : w.worker <;> rw [hw] at hs
  case top current =>
    cases hs
    refine ⟨Or.inl, Or.inr, fun he => ?_, Or.inl⟩
    unfold workTop at he
    dsimp only at he
    repeat' split at he
    all_goals cases he
  case processing rid =>
    cases hs
    refine .of_eq rfl rfl (Or.inr fun he => ?_) rfl
    unfold workProcess at he
    dsimp only at he
    split at he <;> cases he
  case pinging rid conn =>
    dsimp only at hs
    split at hs <;> (cases hs; exact .of_eq rfl rfl (Or.inr nofun) rfl)
  case effects =>
    cases hs
    unfold workEffects
    split
    · refine .of_eq rfl rfl (Or.inr fun he => ?_) rfl
      dsimp only at he
      split at he <;> cases he
    · exact .of_eq rfl rfl (Or.inr nofun) rfl
  case dropping =>
    cases hs
    unfold workDrop
    split <;> exact .of_eq rfl rfl (Or.inr nofun) rfl
  case sweeping =>
    cases hs
    refine ⟨Or.inl, Or.inl, fun he => Or.inr ?_, Or.inl⟩
    unfold workSweep at he ⊢
    dsimp only at he ⊢
    split at he
    · rename_i hexit
      simp only [Bool.and_eq_true, Bool.or_eq_true, Bool.not_eq_true', List.isEmpty_iff] at hexit
      exact ⟨hexit.2, hexit.1⟩
    · cases he
  case exited => cases hs
  all_goals cases hs; exact .of_eq rfl rfl (Or.inr nofun) rfl

private theorem proceeds_step {action : Action C} (hs : step w action = some w') : Proceeds w w' := by
  cases stepEnds_step hs with
  | closed hout =>
    refine ⟨fun _ => Or.inr ?_, Or.inl, Or.inl, Or.inl⟩
    unfold requestWorkerShutdown at hout
    split at hout
    · rename_i hc
      cases hout
      simpa using hc
    · split at hout
      · cases hout
      · cases hout; rfl
  | returned he => exact ⟨Or.inl, Or.inl, Or.inl, fun _ => Or.inr he⟩
  | worked h => exact proceeds_workStep h
  | _ => exact .of_eq rfl rfl (Or.inl rfl) rfl

/-- Every step keeps what is known of a closed pool. -/
theorem shutInv_step {action : Action C} (hkey : Keyed w.state w.worker) (hreq : RequestsInv w.state w.worker)
    (h : ShutInv w) (hs : step w action = some w') : ShutInv w' := by
  have hp := proceeds_step hs
  obtain ⟨-, hfrozen, hclosed, hexited⟩ := (edits_step hs).keep (P := fun s wk =>
    (s.isOpen = false → Frozen s wk.filling) ∧ (w.state.isOpen = false → s.isOpen = false) ∧
    (w.worker = .exited → wk = .exited ∧ s.toDrop = [])) hkey hreq ⟨h.frozen, id, fun he => ⟨he, (h.exited he).2⟩⟩ (by
      rintro s wk t wk' hkey hreq ⟨hfrozen, hclosed, hexited⟩ he
      refine ⟨fun ho => ?_, fun hc => ?_, fun hw => ?_⟩
      · rcases he.frame.2 with heq | ⟨rfl, rfl⟩
        · exact ((hfrozen (heq.symm.trans ho)).edit hkey hreq he).1
        · exact (frozen_requestWorkerShutdownLocked s).weaken _
      · rcases he.frame.2 with heq | ⟨rfl, -⟩
        · exact heq.trans (hclosed hc)
        · rfl
      · obtain ⟨hwk, hdrop⟩ := hexited hw
        obtain ⟨hwk', hdrop'⟩ := ((hfrozen (hclosed (h.exited hw).1)).edit hkey hreq he).2 hwk
        exact ⟨hwk', hdrop'.trans hdrop⟩)
  refine ⟨fun hr => ?_, fun hst => ?_, hfrozen, fun he => ?_, fun hf => ?_⟩
  · exact (hp.reaperStop hr).elim (fun hr => hclosed (h.reaperStop hr)) id
  · exact hclosed ((hp.stopping hst).elim h.stopping h.reaperStop)
  · rcases hp.exited he with hw | ⟨hdrop, hc | hst⟩
    · exact ⟨hclosed (h.exited hw).1, (hexited hw).2⟩
    · exact ⟨hc, hdrop⟩
    · exact ⟨hclosed (h.stopping hst), hdrop⟩
  · exact (hp.finished hf).elim (fun hf => (hexited (h.finished hf)).1) id

theorem shutInv_start (config : PoolConfig) : ShutInv (World.start config : World C) :=
  ⟨(fun h => by cases h), (fun h => by cases h), (fun h => by cases h), (fun h => by cases h), fun h => by cases h⟩

/-- When the close call that awaited the worker has returned, no connection is left anywhere in the pool. -/
theorem ShutInv.places_eq_zero (h : ShutInv w) (hf : w.closeFinished = true) : w.places = 0 := by
  have he := h.finished hf
  obtain ⟨ho, hd⟩ := h.exited he
  have hfz := h.frozen ho
  rw [he] at hfz
  rw [World.places, hfz.held, hd, Frozen.slots_eq_zero hfz, he]
  rfl

end OracleThin.Pool
