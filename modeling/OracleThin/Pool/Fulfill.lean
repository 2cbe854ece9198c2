import OracleThin.Pool.Ledger

/-!
# What a poll of an acquire future does

`fulfill` scans the free connections for one it can attach to the request.  `chosen` is that connection as a function
of the state before the poll, and `overwritten` is what the poll loses: the connection that sat in the slot of the
request when another one is attached.
-/

namespace OracleThin.Pool

open Lib

variable {C : Type}

/-! ### Requests in the hands of the worker -/

/-- A request the worker has picked: it is queued for the worker, and marked as in progress unless it was
abandoned. -/
def Request.Owned (r : Request C) : Prop := r.bgProcessing = true ∧ (r.inProgress = true ∨ r.waiting = false)

/-! ### Frame of the container functions -/

section Frame

variable (s : PoolState C) (c : PooledConn C)

@[simp] theorem ensureMinConnections_requests : (ensureMinConnections s).requests = s.requests := by
  unfold ensureMinConnections; split <;> rfl

@[simp] theorem ensureMinConnections_freeNew : (ensureMinConnections s).freeNew = s.freeNew := by
  unfold ensureMinConnections; split <;> rfl

@[simp] theorem ensureMinConnections_freeUsed : (ensureMinConnections s).freeUsed = s.freeUsed := by
  unfold ensureMinConnections; split <;> rfl

@[simp] theorem ensureMinConnections_busy : (ensureMinConnections s).busy = s.busy := by
  unfold ensureMinConnections; split <;> rfl

@[simp] theorem dropConn_requests : (dropConn s c).requests = s.requests := by simp [dropConn, pushToDrop]

@[simp] theorem dropConn_freeNew : (dropConn s c).freeNew = s.freeNew := by simp [dropConn, pushToDrop]

@[simp] theorem dropConn_freeUsed : (dropConn s c).freeUsed = s.freeUsed := by simp [dropConn, pushToDrop]

@[simp] theorem dropConn_busy : (dropConn s c).busy = s.busy := by simp [dropConn, pushToDrop]

@[simp] theorem dropConn_config : (dropConn s c).config = s.config := (moves_dropConn s c).config

@[simp] theorem dropConn_request? (rid : Nat) : (dropConn s c).request? rid = s.request? rid := by
  rw [PoolState.request?, dropConn_requests]; rfl

@[simp] theorem reject_requests (slot : Option (PooledConn C)) : (reject s slot).requests = s.requests := by
  unfold reject; repeat' split
  all_goals rfl

@[simp] theorem reject_busy (slot : Option (PooledConn C)) : (reject s slot).busy = s.busy := by
  unfold reject; repeat' split
  all_goals rfl

end Frame

/-- A lock section that moves ids and leaves the busy list alone. -/
structure Polled (s s' : PoolState C) (gain lost : Multiset Nat) : Prop extends Moves s s' gain lost where
  busy : s'.busy = s.busy

namespace Polled

variable {s s' s'' : PoolState C} {g g' l l' : Multiset Nat}

theorem refl (s : PoolState C) : Polled s s 0 0 := ⟨Moves.refl s, rfl⟩

theorem trans {m n : Multiset Nat} (h : Polled s s' g l) (h' : Polled s' s'' m n) : Polled s s'' (g + m) (l + n) :=
  ⟨h.toMoves.trans h'.toMoves, h'.busy.trans h.busy⟩

theorem cast (h : Polled s s' g l) (hg : g = g') (hl : l = l') : Polled s s' g' l' := by
  subst hg hl; exact h

theorem cancel {a : Multiset Nat} (h : Polled s s' (a + g) (a + l)) : Polled s s' g l :=
  ⟨h.toMoves.cancel, h.busy⟩

end Polled

theorem polled_dropConn (s : PoolState C) (c : PooledConn C) : Polled s (dropConn s c) {c.id} 0 :=
  ⟨moves_dropConn s c, dropConn_busy s c⟩

/-! ### The scans -/

section Scan

variable (env : Env C) (config : PoolConfig) (stale : Bool)

/-- The first usable candidate; a request that already waits for a ping only looks at one. -/
def chosen : List (PooledConn C) → Option (PooledConn C)
  | [] => none
  | c :: cs => if usable env config c then some c else if stale then none else chosen cs

end Scan

variable {env : Env C} {s : PoolState C} {rid : Nat} {r : Request C} {c : PooledConn C}

/-- What attaching the chosen candidate to `r` overwrites. -/
def attachLoss (r : Request C) (o : Option (PooledConn C)) : Multiset Nat := if o.isSome then r.slot else 0

theorem Request.attach_id (ping : Bool) (c : PooledConn C) (r : Request C) : (r.attach ping c).id = r.id := by
  cases ping <;> rfl

private theorem slot_attach (ping : Bool) (c : PooledConn C) (r : Request C) : (r.attach ping c).slot = {c.id} := by
  cases ping <;> simp [Request.attach, Request.slot]

/-! ### Taking a connection out of a free list -/

/-- `conn` leaves one of the free lists of `s`, which gives `u`. -/
inductive Leaves (s : PoolState C) (conn : PooledConn C) : PoolState C → Prop
  | used {a b : List (PooledConn C)} (h : s.freeUsed = a ++ conn :: b) : Leaves s conn { s with freeUsed := a ++ b }
  | new {a b : List (PooledConn C)} (h : s.freeNew = a ++ conn :: b) : Leaves s conn { s with freeNew := a ++ b }

/-- A free connection that `fulfill` tries for `r`. -/
def Candidate (r : Request C) (s : PoolState C) (conn : PooledConn C) : Prop :=
  (r.wantsNew = false ∧ conn ∈ s.freeUsed ∧ classMatches r.cclass conn = true) ∨
    (r.cclassMatches = true ∧ conn ∈ s.freeNew)

namespace Leaves

variable {u : PoolState C} {conn : PooledConn C} (h : Leaves s conn u)

include h

theorem requests : u.requests = s.requests := by cases h <;> rfl

theorem config : u.config = s.config := by cases h <;> rfl

theorem isOpen : u.isOpen = s.isOpen := by cases h <;> rfl

theorem request? (rid : Nat) : u.request? rid = s.request? rid := by cases h <;> rfl

theorem polled : Polled s u 0 {conn.id} := by
  refine ⟨?_, by cases h <;> rfl⟩
  cases h with
  | used he | new he => exact moves_containers (by rw [he]; simp only [ids_append, ids_cons]; abel)

theorem polled_dropConn : Polled s (dropConn u conn) 0 0 :=
  ((h.polled.trans (Pool.polled_dropConn u conn)).cast (zero_add _ |>.trans (add_zero _).symm) rfl).cancel

end Leaves

private theorem leaves_eraseIdx {ix : Nat} (h : s.freeUsed[ix]? = some c) :
    Leaves s c { s with freeUsed := s.freeUsed.eraseIdx ix } := by
  obtain ⟨hlt, hget⟩ := List.getElem?_eq_some_iff.1 h
  have hsplit : s.freeUsed = s.freeUsed.take ix ++ c :: s.freeUsed.drop (ix + 1) := by
    rw [← hget, List.cons_getElem_drop_succ, List.take_append_drop]
  have := Leaves.used hsplit
  rwa [← List.eraseIdx_eq_take_drop_succ] at this

private theorem eq_dropLast_append {α : Type} {l : List α} {x : α} (h : l.getLast? = some x) :
    l = l.dropLast ++ x :: [] := by
  obtain ⟨ys, hys⟩ := List.getLast?_eq_some_iff.1 h
  rw [hys, List.dropLast_concat]

theorem leaves_lastUsed (h : s.freeUsed.getLast? = some c) :
    Leaves s c { s with freeUsed := s.freeUsed.dropLast } := by
  have := Leaves.used (eq_dropLast_append h)
  rwa [List.append_nil] at this

theorem leaves_lastNew (h : s.freeNew.getLast? = some c) : Leaves s c { s with freeNew := s.freeNew.dropLast } := by
  have := Leaves.new (eq_dropLast_append h)
  rwa [List.append_nil] at this

/-! ### The scans, connection by connection -/

/-- A usable candidate that is tried is attached: the request is queued for a ping, or completed. -/
theorem tryCandidate_usable (hr : s.request? r.id = some r) (hlive : usable env s.config c = true) :
    tryCandidate env s r.id c = (some (.ok (!pingRequired env s.config c)),
      s.modifyRequest r.id (Request.attach (pingRequired env s.config c) c)) := by
  have hcheck : checkConnection env s r.id c =
      s.modifyRequest r.id (Request.attach (pingRequired env s.config c) c) := by
    rw [checkConnection, hlive, if_pos rfl, hr]
  simp only [tryCandidate, hcheck, request?_modifyRequest (Request.attach_id _ c) hr]
  cases pingRequired env s.config c <;> simp [Request.attach]

/-- An unusable candidate is dropped; the scan goes on unless the request waits for a ping. -/
theorem tryCandidate_unusable (hr : s.request? rid = some r) (hc : r.completed = false)
    (hu : usable env s.config c = false) :
    tryCandidate env s rid c = (if r.requiresPing then some (.ok false) else none, dropConn s c) := by
  have hcheck : checkConnection env s rid c = dropConn s c := by
    rw [checkConnection, hu, if_neg (by simp)]
  simp only [tryCandidate, hcheck, dropConn_request?, hr, hc, Bool.false_or]
  split <;> rfl

/-- How a scan for `r` over the candidates goes: they are dropped one by one until one is usable and attached, and `Q`
holds when none is left. -/
inductive Scan (env : Env C) (r : Request C) (Q : PoolState C → Prop) :
    List (PooledConn C) → PoolState C → Option (Except PoolError Bool) × PoolState C → Prop
  | exhausted {s : PoolState C} (hQ : Q s) : Scan env r Q [] s (none, s)
  | dropped {cs : List (PooledConn C)} {s u : PoolState C} {conn : PooledConn C}
      {out : Option (Except PoolError Bool) × PoolState C} (hleave : Leaves s conn u) (hcand : Candidate r s conn)
      (hdead : usable env s.config conn = false) (hping : r.requiresPing = false)
      (hrest : Scan env r Q cs (dropConn u conn) out) : Scan env r Q (conn :: cs) s out
  /-- The request waited for a ping already, so the scan stops after one dropped candidate. -/
  | stalled {cs : List (PooledConn C)} {s u : PoolState C} {conn : PooledConn C} (hleave : Leaves s conn u)
      (hcand : Candidate r s conn) (hdead : usable env s.config conn = false) (hping : r.requiresPing = true) :
      Scan env r Q (conn :: cs) s (some (.ok false), dropConn u conn)
  | attached {cs : List (PooledConn C)} {s u : PoolState C} {conn : PooledConn C} (hleave : Leaves s conn u)
      (hcand : Candidate r s conn) (hlive : usable env s.config conn = true) :
      Scan env r Q (conn :: cs) s (some (.ok (!pingRequired env s.config conn)),
        u.modifyRequest r.id (Request.attach (pingRequired env s.config conn) conn))

namespace Scan

variable {Q Q' : PoolState C → Prop} {cs cs' : List (PooledConn C)}
  {out : Option (Except PoolError Bool) × PoolState C}

/-- One round of a scan: the candidate leaves its list and is tried. -/
theorem round {u : PoolState C} {next : PoolState C → Option (Except PoolError Bool) × PoolState C}
    (hr : s.request? r.id = some r) (hc : r.completed = false) (hleave : Leaves s c u) (hcand : Candidate r s c)
    (hnext : Scan env r Q cs (dropConn u c) (next (dropConn u c))) :
    Scan env r Q (c :: cs) s (match tryCandidate env u r.id c with
      | (some res, s) => (some res, s)
      | (none, s) => next s) := by
  have hru : u.request? r.id = some r := by rw [hleave.request?]; exact hr
  cases hu : usable env s.config c with
  | true =>
    rw [tryCandidate_usable hru (by rw [hleave.config]; exact hu), hleave.config]
    exact .attached hleave hcand hu
  | false =>
    rw [tryCandidate_unusable hru hc (by rw [hleave.config]; exact hu)]
    cases hping : r.requiresPing with
    | true => exact .stalled hleave hcand hu hping
    | false => exact .dropped hleave hcand hu hping hnext

/-- A second scan follows when the first one runs out of candidates. -/
theorem append {next : PoolState C → Option (Except PoolError Bool) × PoolState C}
    (hnext : ∀ t, t.request? r.id = s.request? r.id → Q t → Scan env r Q' cs' t (next t)) :
    Scan env r Q cs s out → Scan env r Q' (cs ++ cs') s (match out with
      | (some res, s) => (some res, s)
      | (none, s) => next s) := by
  intro h
  induction h with
  | exhausted hQ => exact hnext _ rfl hQ
  | dropped hleave hcand hdead hping _ ih =>
    refine .dropped hleave hcand hdead hping (ih fun t ht hQ => hnext t ?_ hQ)
    rw [ht, dropConn_request?, hleave.request?]
  | stalled hleave hcand hdead hping => exact .stalled hleave hcand hdead hping
  | attached hleave hcand hlive => exact .attached hleave hcand hlive

/-- A scan loses what the chosen candidate overwrites. -/
theorem polled (hr : s.request? r.id = some r) (h : Scan env r Q cs s out) :
    Polled s out.2 0 (attachLoss r (chosen env s.config r.requiresPing cs)) := by
  induction h with
  | exhausted => exact Polled.refl _
  | dropped hleave _ hdead hping _ ih =>
    have hrest := ih (by rw [dropConn_request?, hleave.request?]; exact hr)
    rw [dropConn_config, hleave.config] at hrest
    simp only [chosen, hdead, hping, Bool.false_eq_true, if_false] at hrest ⊢
    exact (hleave.polled_dropConn.trans hrest).cast (zero_add _) (zero_add _)
  | stalled hleave _ hdead hping =>
    simp only [chosen, hdead, hping, attachLoss]
    exact hleave.polled_dropConn
  | @attached cs s u conn hleave _ hlive =>
    have hru := (hleave.request? r.id).trans hr
    have hp : Polled u _ _ r.slot :=
      ⟨moves_modifyRequest_slot (Request.attach_id (pingRequired env s.config conn) conn) hru, rfl⟩
    rw [slot_attach] at hp
    simp only [chosen, hlive, if_true, attachLoss, Option.isSome_some]
    exact Polled.cancel ((hleave.polled.trans hp).cast (by rw [zero_add, add_zero]) rfl)

end Scan

/-- The used connections that `fulfill` tries for `r`, up to position `ix`, in the order in which it tries them. -/
def usedCandidates (r : Request C) (ix : Nat) (l : List (PooledConn C)) : List (PooledConn C) :=
  (l.take ix).reverse.filter (classMatches r.cclass)

private theorem usedCandidates_succ (r : Request C) (ix : Nat) (l : List (PooledConn C)) :
    usedCandidates r (ix + 1) l = l[ix]?.toList.filter (classMatches r.cclass) ++ usedCandidates r ix l := by
  rw [usedCandidates, List.take_add_one, List.reverse_append, List.filter_append, usedCandidates]
  cases l[ix]? <;> rfl

/-- No used connection of the class of `r` is left. -/
def NoneUsed (r : Request C) (s : PoolState C) : Prop := ∀ c ∈ s.freeUsed, classMatches r.cclass c = false

private theorem scan_scanUsed (env : Env C) (hw : r.wantsNew = false) (hc : r.completed = false)
    (L : List (PooledConn C)) (ix : Nat) (s : PoolState C) (hr : s.request? r.id = some r) (hL : s.freeNew = L)
    (hpast : ∀ c ∈ s.freeUsed.drop ix, classMatches r.cclass c = false) :
    Scan env r (fun t => NoneUsed r t ∧ t.freeNew = L) (usedCandidates r ix s.freeUsed) s
      (scanUsed env r.id r.cclass ix s) := by
  induction ix generalizing s with
  | zero => exact .exhausted ⟨fun c hcm => hpast c (by simpa using hcm), hL⟩
  | succ ix ih =>
    rw [usedCandidates_succ, scanUsed]
    split
    · rename_i hget
      rw [hget]
      refine ih s hr hL fun c hcm => ?_
      rw [List.drop_eq_nil_of_le (List.getElem?_eq_none_iff.1 hget)] at hcm
      cases hcm
    · rename_i c hget
      obtain ⟨hlt, hconn⟩ := List.getElem?_eq_some_iff.1 hget
      rw [hget]
      split
      · rename_i hm
        have hleave := leaves_eraseIdx hget
        have hcand : Candidate r s c := Or.inl ⟨hw, List.mem_of_getElem? hget, hm⟩
        have hrest := ih (dropConn { s with freeUsed := s.freeUsed.eraseIdx ix } c)
          (by rw [dropConn_request?]; exact hr) (by rw [dropConn_freeNew]; exact hL)
        -- removing position `ix` leaves the positions still to be scanned alone; those behind it have been scanned
        have hcs : usedCandidates r ix (dropConn { s with freeUsed := s.freeUsed.eraseIdx ix } c).freeUsed =
            usedCandidates r ix s.freeUsed := by
          rw [dropConn_freeUsed, usedCandidates, List.take_eraseIdx_eq_take_of_le _ _ _ (Nat.le_refl ix)]
          rfl
        rw [hcs] at hrest
        simp only [Option.toList_some, List.filter_cons, hm, if_true, List.filter_nil, List.singleton_append]
        refine Scan.round hr hc hleave hcand (hrest ?_)
        intro c' hcm
        rw [dropConn_freeUsed] at hcm
        refine hpast c' ?_
        rwa [List.eraseIdx_eq_take_drop_succ, List.drop_append_of_le_length (by simp; omega),
          List.drop_eq_nil_of_le (by simp), List.nil_append] at hcm
      · rename_i hm
        simp only [Option.toList_some, List.filter_cons, hm, List.filter_nil]
        refine ih s hr hL fun c' hcm => ?_
        rw [List.drop_eq_getElem_cons hlt, List.mem_cons] at hcm
        rcases hcm with rfl | hcm
        · rw [hconn]; simpa using hm
        · exact hpast c' hcm

/-- What is left in the free lists when a scan for `r` runs out of candidates. -/
structure Exhausted (r : Request C) (s : PoolState C) : Prop where
  used : r.wantsNew = false → NoneUsed r s
  new : r.cclassMatches = true → s.freeNew = []

private theorem scan_scanNew (env : Env C) (hm : r.cclassMatches = true) (hc : r.completed = false) (n : Nat)
    (s : PoolState C) (hr : s.request? r.id = some r) (hs : r.wantsNew = false → NoneUsed r s)
    (hn : s.freeNew.length = n) : Scan env r (Exhausted r) s.freeNew.reverse s (scanNew env r.id n s) := by
  induction n generalizing s with
  | zero =>
    have hnil := List.length_eq_zero_iff.1 hn
    rw [hnil]
    exact .exhausted ⟨hs, fun _ => hnil⟩
  | succ n ih =>
    rw [scanNew]
    split
    · rename_i hlast
      rw [List.getLast?_eq_none_iff.1 hlast] at hn
      cases hn
    · rename_i c hlast
      have hleave := leaves_lastNew hlast
      have hcand : Candidate r s c := Or.inr ⟨hm, List.mem_of_getLast? hlast⟩
      have hrest := ih (dropConn { s with freeNew := s.freeNew.dropLast } c)
        (by rw [dropConn_request?]; exact hr) (fun hw c' hcm => hs hw c' (by simpa using hcm))
        (by rw [dropConn_freeNew, List.length_dropLast, hn]; rfl)
      rw [dropConn_freeNew] at hrest
      have hcs : s.freeNew.reverse = c :: s.freeNew.dropLast.reverse := by
        conv => lhs; rw [← List.dropLast_append_getLast? c hlast]
        rw [List.reverse_append]; rfl
      rw [hcs]
      exact Scan.round hr hc hleave hcand hrest

/-- All free connections that `fulfill` tries for `r`, in the order in which it tries them. -/
def candidates (s : PoolState C) (r : Request C) : List (PooledConn C) :=
  (if r.wantsNew then [] else s.freeUsed.reverse.filter (classMatches r.cclass)) ++
    if r.cclassMatches then s.freeNew.reverse else []

theorem scan_scanFree (env : Env C) (hr : s.request? r.id = some r) (hc : r.completed = false) :
    Scan env r (Exhausted r) (candidates s r) s (scanFree env s r) := by
  have hused : Scan env r (fun t => (r.wantsNew = false → NoneUsed r t) ∧ t.freeNew = s.freeNew)
      (if r.wantsNew then [] else s.freeUsed.reverse.filter (classMatches r.cclass)) s
      (if r.wantsNew then (none, s) else scanUsed env r.id r.cclass s.freeUsed.length s) := by
    cases hw : r.wantsNew with
    | true => exact .exhausted ⟨nofun, rfl⟩
    | false =>
      have h := scan_scanUsed env hw hc s.freeNew s.freeUsed.length s hr rfl (by simp)
      rw [usedCandidates, List.take_length] at h
      simpa using h
  refine Scan.append (fun t hrt ht => ?_) hused
  rw [← ht.2]
  split
  · rename_i hm
    exact scan_scanNew env hm hc _ t (hrt.trans hr) ht.1 rfl
  · rename_i hm
    exact .exhausted ⟨ht.1, fun h => absurd h hm⟩

/-- What a poll overwrites: the slot of the polled request, when it is still free to be served and a candidate is
attached to it. -/
def overwritten (env : Env C) (s : PoolState C) (rid : Nat) : Multiset Nat :=
  match s.request? rid with
  | none => 0
  | some r =>
    if s.isOpen && r.error.isNone && !r.completed && !r.bgProcessing then
      attachLoss r (chosen env s.config r.requiresPing (candidates s r))
    else 0

end OracleThin.Pool
