import OracleThin.Pool.Ownership

/-!
# What an acquirer finds

An acquire future polls for its request until the request is completed, and takes the connection out of the slot then.
`Served` says that both are where the future looks for them: a completed request holds a connection, and the request
of a future that still polls stays in the table of an open pool.  So no poll ends in an internal error
(`poll_not_internal`).
-/

namespace OracleThin.Pool

open Lib

variable {C : Type}

/-- The completed requests hold a connection, and the requests that are waited for are there. -/
structure Served (awaited : Nat → Prop) (s : PoolState C) : Prop where
  filled : ∀ r ∈ s.requests, r.completed = true → r.conn.isSome = true
  present : s.isOpen = true → ∀ rid, awaited rid → ∃ r ∈ s.requests, r.id = rid ∧ r.waiting = true

namespace Served

variable {A L : Nat → Prop} {w : World C} {a : Action C} {env : Env C} {s t u : PoolState C} {wk wk' : Worker C}
    {rid : Nat}
  {r : Request C} {conn : PooledConn C}

section

variable (h : Served A s)

include h

theorem of_requests_eq (hreq : t.requests = s.requests) (hopen : t.isOpen = true → s.isOpen = true) :
    Served A t :=
  ⟨by rw [hreq]; exact h.filled, fun ho => by rw [hreq]; exact h.present (hopen ho)⟩

theorem moves {g l : Multiset Nat} (hreq : t.requests = s.requests) (hm : Moves s t g l) : Served A t :=
  h.of_requests_eq hreq fun ho => hm.isOpen.symm.trans ho

/-- One request is changed; it stays awaited, or its acquirer is the one who acts. -/
theorem modifyFirst {p : Request C → Bool} {f : Request C → Request C} (hid : ∀ r, (f r).id = r.id)
    (hfill : ∀ r, s.requests.find? p = some r → (r.completed = true → r.conn.isSome = true) → (f r).completed = true →
      (f r).conn.isSome = true)
    (hwait : ∀ r, s.requests.find? p = some r → A r.id → r.waiting = true → (f r).waiting = true) :
    Served A { s with requests := Lib.modifyFirst p f s.requests } := by
  refine ⟨fun r hr => ?_, fun ho rid hA => ?_⟩
  · rcases mem_modifyFirst hr with hr | ⟨r', hr', rfl⟩
    · exact h.filled r hr
    · exact hfill r' hr' (h.filled r' (List.mem_of_find?_eq_some hr'))
  · obtain ⟨r, hr, rfl, hw⟩ := h.present ho rid hA
    rcases mem_modifyFirst_of_mem (p := p) (f := f) hr with hr' | ⟨hr', hfound⟩
    · exact ⟨r, hr', rfl, hw⟩
    · exact ⟨f r, hr', hid r, hwait r hfound hA hw⟩

theorem mark {p : Request C → Bool} {f : Request C → Request C} (hid : ∀ r, (f r).id = r.id)
    (hcompleted : ∀ r, (f r).completed = r.completed) (hconn : ∀ r, (f r).conn = r.conn)
    (hwait : ∀ r, (f r).waiting = r.waiting) : Served A { s with requests := Lib.modifyFirst p f s.requests } :=
  h.modifyFirst hid (fun r _ hr => by rw [hcompleted, hconn]; exact hr) fun r _ _ hw => (hwait r).trans hw

theorem fill {p : Request C → Bool} {f : Request C → Request C} (hid : ∀ r, (f r).id = r.id)
    (hconn : ∀ r, (f r).conn.isSome = true) (hwait : ∀ r, (f r).waiting = r.waiting) :
    Served A { s with requests := Lib.modifyFirst p f s.requests } :=
  h.modifyFirst hid (fun r _ _ _ => hconn r) fun r _ _ hw => (hwait r).trans hw

theorem enlist (rid : Nat) (replacing extra : Bool) :
    Served A (s.modifyRequest rid (Request.enlist replacing extra)) :=
  h.modifyFirst (fun _ => rfl) (fun _ _ _ hc => by cases hc) fun _ _ _ hw => hw

theorem removeRequest (hne : A rid → ∀ r ∈ s.requests, r.id = rid → r.waiting = false) :
    Served A (s.removeRequest rid) := by
  refine ⟨fun r hr => h.filled r (List.mem_of_mem_eraseP hr), fun ho rid' hA => ?_⟩
  obtain ⟨r, hr, rfl, hw⟩ := h.present ho rid' hA
  have hid : r.id ≠ rid := by
    rintro rfl
    exact absurd (hw.symm.trans (hne hA r hr rfl)) nofun
  exact ⟨r, List.mem_eraseP_of_neg (by simpa using hid) |>.2 hr, rfl, hw⟩

theorem reject (slot : Option (PooledConn C)) : Served A (reject s slot) :=
  h.moves (reject_requests s slot) (moves_reject s slot)

theorem dropConn (conn : PooledConn C) : Served A (dropConn s conn) :=
  h.moves (dropConn_requests s conn) (moves_dropConn s conn)

theorem leaves (hl : Leaves s conn u) : Served A u :=
  h.of_requests_eq hl.requests fun ho => hl.isOpen.symm.trans ho

theorem empties (hreq : RequestsInv s (.processing rid)) :
    Served A (s.modifyRequest rid Request.emptied) := by
  refine h.modifyFirst (fun _ => rfl) (fun r hr _ hc => ?_) fun r _ _ hw => hw
  have hown := (hreq r (List.mem_of_find?_eq_some hr)).owned (by rw [request?_id hr]; rfl)
  exact absurd (hc.symm.trans hown.2.1) nofun

theorem enqueueRequest (opts : AcquireOptions) : Served A (enqueueRequest s opts).2 := by
  unfold Pool.enqueueRequest
  split
  · exact h
  · refine ⟨fun r hr => ?_, fun ho rid hA => ?_⟩
    · rcases List.mem_append.1 hr with hr | hr
      · exact h.filled r hr
      · rw [List.mem_singleton.1 hr]; exact nofun
    · obtain ⟨r, hr, hrest⟩ := h.present ho rid hA
      exact ⟨r, List.mem_append_left _ hr, hrest⟩

end

theorem shutdown (hreq : RequestsInv s wk) (ho : s.isOpen = true) :
    Served A (requestWorkerShutdownLocked s) := by
  refine ⟨fun r' hr' hc => ?_, (Bool.noConfusion ·)⟩
  simp only [requestWorkerShutdownLocked, List.mem_map, List.mem_filter] at hr'
  obtain ⟨r, ⟨hr, hp⟩, rfl⟩ := hr'
  have hown := (hreq r hr).owned ((hreq r hr).inProgress ho hp)
  exact Bool.noConfusion (hown.2.1.symm.trans hc)

theorem postCreateConn {connId : Nat} {result : Except String (PooledConn C)} (h : Served A s) :
    Served A (postCreateConn s connId result) := by
  have h₁ : Served A (completeOpenEffect s connId) := h.of_requests_eq rfl id
  unfold Pool.postCreateConn
  generalize completeOpenEffect s connId = t at h₁ ⊢
  cases result with
  | error message =>
    dsimp only
    split
    · exact h₁.mark (fun _ => rfl) (fun _ => rfl) (fun _ => rfl) fun _ => rfl
    · exact h₁
  | ok conn =>
    dsimp only
    split
    · exact h₁.of_requests_eq rfl id
    · split
      · refine h₁.fill (fun r => ?_) (fun r => ?_) fun r => ?_
        all_goals
          unfold Request.takeCreated
          split <;> rfl
      · exact h₁.of_requests_eq rfl id

/-- No edit takes the connection of a completed request, or the request of an acquirer that does not act. -/
theorem edit (h : Served A s) (hkey : Keyed s wk) (hreq : RequestsInv s wk) (hA : ∀ rid, A rid → ¬L rid)
    (he : Edit L w a s wk (t, wk')) : Served A t := by
  cases he with
  | drop hl => exact (h.leaves hl).dropConn _
  | attach ping _ hl =>
    refine (h.leaves hl).fill (Request.attach_id ping _) (fun r => ?_) fun r => ?_
    all_goals cases ping <;> rfl
  | @victim _ conn u _ _ hl =>
    have hpush : Served A (pushToDrop u conn) := (h.leaves hl).of_requests_eq rfl id
    exact hpush.enlist _ true false
  | enlist extra => exact h.enlist _ false extra
  | schedule | strand => exact h.of_requests_eq rfl id
  | finish hL =>
    exact (h.removeRequest fun hA' => absurd hL (hA _ hA')).of_requests_eq rfl id
  | lose hL => exact h.removeRequest fun hA' => absurd hL (hA _ hA')
  | abandon hL hr | fail hL hr =>
    refine h.modifyFirst (fun _ => rfl) (fun _ _ hr => hr) fun r hr hA' => absurd ?_ (hA _ hA')
    rw [request?_id hr]
    exact hL
  | giveUp hL => exact (h.removeRequest fun hA' => absurd hL (hA _ hA')).reject _
  | @back connId _ _ _ _ _ hend =>
    have hout : Served A { s with busy := s.busy.eraseP (·.id == connId) } := h.of_requests_eq rfl id
    cases hend with
    | dropped => exact hout.dropConn _
    | given => exact hout.fill (fun _ => rfl) (fun _ => rfl) fun _ => rfl
    | freed => exact hout.of_requests_eq rfl id
  | @retire connId _ _ =>
    have hout : Served A { s with busy := s.busy.eraseP (·.id == connId) } := h.of_requests_eq rfl id
    exact hout.dropConn _
  | enqueue opts => exact h.enqueueRequest opts
  | configure setting =>
    cases setting with
    | getmode => rw [Setting.apply]; split <;> exact h.of_requests_eq rfl id
    | _ => exact h.of_requests_eq rfl id
  | shutdown ho => exact shutdown hreq ho
  | pick | report => exact h.mark (fun _ => rfl) (fun _ => rfl) (fun _ => rfl) fun _ => rfl
  | start | skip | pass | healthy | dead | created | gone | settle | opened | clean | closed | rest | exit => exact h
  | ping => exact h.empties hreq
  | create => exact (h.empties hreq).of_requests_eq rfl id
  | restore | deliver => exact h.fill (fun _ => rfl) (fun _ => rfl) fun _ => rfl
  | replace => exact h.dropConn _
  | processed =>
    refine h.modifyFirst (fun _ => rfl) (fun r _ hr hc => ?_) fun _ _ _ hw => hw
    rcases Bool.or_eq_true_iff.1 hc with hc | hc
    · exact hr hc
    · exact hc
  | reject hr hw =>
    refine (h.removeRequest fun _ r' hr' hid => ?_).reject _
    cases ((request?_eq_some_iff hkey.keys).2 ⟨hr', hid⟩).symm.trans hr
    exact hw
  | effect => unfold takeOpenEffect; split <;> exact h.of_requests_eq rfl id
  | grow => exact h.postCreateConn
  | close => exact h.of_requests_eq rfl id

theorem edits (h : Served A s) (hkey : Keyed s wk) (hreq : RequestsInv s wk) (hA : ∀ rid, A rid → ¬L rid)
    (he : Edits L w a (s, wk) (t, wk')) : Served A t :=
  (he.keep (P := fun s _ => Served A s) hkey hreq h fun _ _ _ _ hkey hreq h he => h.edit hkey hreq hA he).2

end Served

/-! ### Runs -/

/-- The acquire futures that poll have requests of their own, in the table of an open pool. -/
structure AcquireInv (w : World C) : Prop where
  nodup : w.acquiring.Nodup
  served : Served (· ∈ w.acquiring) w.state

section Steps

variable {w w' : World C} {a : Action C}

private theorem acquiring_workStep {answers : Answers C} (hs : workStep answers w = some w') :
    w'.acquiring = w.acquiring := by
  unfold workStep at hs
  cases hw : w.worker with
  | effects => rw [hw] at hs; cases hs; unfold workEffects; split <;> rfl
  | dropping => rw [hw] at hs; cases hs; unfold workDrop; split <;> rfl
  | pinging => rw [hw] at hs; dsimp only at hs; split at hs <;> (cases hs; rfl)
  | exited => rw [hw] at hs; cases hs
  | _ => rw [hw] at hs; cases hs; rfl

/-- Every step keeps the acquirers served. -/
theorem acquireInv_step (hkey : Keyed w.state w.worker) (hreq : RequestsInv w.state w.worker) (h : AcquireInv w)
    (hs : step w a = some w') : AcquireInv w' := by
  have hrest : w'.acquiring.Nodup → (∀ rid ∈ w'.acquiring, rid ∈ w.acquiring ∧ a.acquirer ≠ some rid) →
      AcquireInv w' := by
    intro hnd hacq
    have hold : Served (fun rid => rid ∈ w.acquiring ∧ a.acquirer ≠ some rid) w'.state :=
      Served.edits ⟨h.served.filled, fun ho rid hA => h.served.present ho rid hA.1⟩ hkey hreq (fun _ hA => hA.2)
        (edits_step hs)
    exact ⟨hnd, hold.filled, fun ho rid hr => hold.present ho rid (hacq rid hr)⟩
  have hsame : w'.acquiring = w.acquiring → a.acquirer = none → AcquireInv w' := by
    intro heq ha
    rw [heq, ha] at hrest
    exact hrest h.nodup fun rid hr => ⟨hr, nofun⟩
  have herase : ∀ rid, w'.acquiring = w.acquiring.erase rid → a.acquirer = some rid → AcquireInv w' := by
    intro rid heq ha
    rw [heq, ha] at hrest
    refine hrest (h.nodup.erase rid) fun rid' hr => ?_
    obtain ⟨hne, hmem⟩ := (List.Nodup.mem_erase_iff h.nodup).1 hr
    exact ⟨hmem, fun h => hne (Option.some.inj h).symm⟩
  cases stepEnds_step hs with
  | served | failed | abandoned => exact herase _ rfl rfl
  | worked hwork => exact hsame (acquiring_workStep hwork) rfl
  | @acquired env opts _ t hq =>
    -- the identifier of a new request is above those of the requests in the table
    have hedits : Edits (fun _ => False) w (.drain env) (w.state, w.worker) ((w.drained env).state, w.worker) :=
      edits_drainDropReturns env w.state (fun _ hi => hi) fun _ => ⟨rfl, rfl, List.Subset.refl _, rfl⟩
    have hd : Served (· ∈ w.acquiring) (w.drained env).state := h.served.edits hkey hreq (fun _ _ => id) hedits
    have hkd : Keyed (w.drained env).state w.worker := hedits.induct hkey fun _ _ _ _ => keyed_edit
    have hq' := hd.enqueueRequest opts
    rw [hq] at hq'
    unfold enqueueRequest at hq
    split at hq
    · cases hq
    · rename_i hopen
      have hopen : (w.drained env).state.isOpen = true := by simpa using hopen
      cases hq
      have hfresh : (w.drained env).state.nextRequestId ∉ w.acquiring := by
        intro hr
        obtain ⟨r, hmem, hid, -⟩ := hd.present hopen _ hr
        have := hkd.keysLt r.id (List.mem_map.2 ⟨r, hmem, rfl⟩)
        omega
      refine ⟨?_, hq'.filled, fun ho rid hr => ?_⟩
      · exact List.nodup_append.2 ⟨h.nodup, List.nodup_singleton _, fun x hx y hy => by
          rw [List.mem_singleton.1 hy]
          rintro rfl
          exact hfresh hx⟩
      · rcases List.mem_append.1 hr with hr | hr
        · exact hq'.present ho rid hr
        · rw [List.mem_singleton.1 hr]
          exact ⟨_, List.mem_append_right _ List.mem_cons_self, rfl, rfl⟩
  | @waiting env rid t hp =>
    have hend := pollEnds_pollRequestCompletion env w.state rid
    rw [hp] at hend
    cases hend with
    | waiting hf => exact ⟨h.nodup, h.served.edits (L := fun _ => False) hkey hreq (fun _ _ => id) hf.edits⟩
  | _ => exact hsame rfl rfl

/-- The poll of a future whose request is in the table does not end in an internal error. -/
theorem poll_not_internal {env : Env C} {rid : Nat} (hkey : Keyed w.state w.worker)
    (hreq : RequestsInv w.state w.worker) (h : AcquireInv w) (hr : rid ∈ w.acquiring) (message : String) :
    (pollRequestCompletion env w.state rid).1 ≠ .error (.internal message) := by
  intro hbad
  cases hopen : w.state.isOpen with
  | false =>
    unfold pollRequestCompletion fulfill at hbad
    rw [hopen] at hbad
    cases hbad
  | true =>
    obtain ⟨r, hmem, hid, -⟩ := h.served.present hopen rid hr
    have hfound := (request?_eq_some_iff hkey.keys).2 ⟨hmem, hid⟩
    have hend := pollEnds_pollRequestCompletion env w.state rid
    generalize pollRequestCompletion env w.state rid = out at hend hbad
    cases hend with
    | finished => cases hbad
    | waiting => cases hbad
    | lost hf hr' hc hconn =>
      have hserved := h.served.edits (L := fun _ => False) hkey hreq (fun _ _ => id) hf.edits
      have := hserved.filled _ (List.mem_of_find?_eq_some hr') hc
      rw [hconn] at this
      cases this
    | failed hf =>
      cases hf with
      | refused hno =>
        rcases hno with hclosed | hnone
        · rw [hclosed] at hopen; cases hopen
        · rw [hnone] at hfound; cases hfound
      | failed => cases hbad
      | enlisted _ _ _ _ hq => cases hq; cases hbad

end Steps

/-- In every reachable state a completed request holds a connection, the request of a future that still polls is in
the table as long as the pool is open, and no poll ends in an internal error. -/
theorem acquirers_served (config : PoolConfig) (w : World C) (h : Reachable config w) :
    (∀ r ∈ w.state.requests, r.completed = true → r.conn.isSome = true) ∧
    (w.state.isOpen = true → ∀ rid ∈ w.acquiring, rid ∈ w.state.keys) ∧
    ∀ env, ∀ rid ∈ w.acquiring, ∀ message,
      (pollRequestCompletion env w.state rid).1 ≠ .error (.internal message) := by
  obtain ⟨actions, h⟩ := h
  obtain ⟨⟨hinv, hreq⟩, hacq⟩ := exec_induct
    (I := fun w : World C => (Inv w ∧ RequestsInv w.state w.worker) ∧ AcquireInv w)
    (fun w a w' hI hs => ⟨inv_requestsInv_step hI.1 hs, acquireInv_step hI.1.1.core.keyed hI.1.2 hI.2 hs⟩)
    ⟨⟨inv_start config, requestsInv_start config⟩, List.nodup_nil, fun _ hr => (by cases hr), fun _ _ hr =>
      by cases hr⟩ h
  refine ⟨hacq.served.filled, fun ho rid hr => ?_, fun env rid hr => poll_not_internal hinv.core.keyed hreq hacq hr⟩
  obtain ⟨r, hmem, hid, -⟩ := hacq.served.present ho rid hr
  exact List.mem_map.2 ⟨r, hmem, hid⟩

/-- An acquirer waits in the queue of a pool without connections. -/
def queuedAcquireRun : List (Action Unit) := [.acquire .calm {}, .poll .calm 1]

theorem acquirers_served_queuedAcquireRun :
    ∃ w, exec step (World.start (PoolConfig.new 0 1 1)) queuedAcquireRun = some w ∧ w.acquiring = [1] ∧
      (w.state.isOpen = true → ∀ rid ∈ w.acquiring, rid ∈ w.state.keys) :=
  ⟨_, rfl, rfl, (acquirers_served (PoolConfig.new 0 1 1) _ ⟨queuedAcquireRun, rfl⟩).2.1⟩

end OracleThin.Pool
