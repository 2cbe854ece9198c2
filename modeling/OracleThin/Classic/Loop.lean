import OracleThin.Classic.Functions

/-!
# Message loops that know their end

The query parsers and the check of the connect phase remember whether a message has ended the call, and report an
incomplete response otherwise. On a response that a plain reader accepts they report every proper prefix as
incomplete: a message that is cut asks for more, or, if the cut is in a field after its length, is taken without an
end of the call.
-/

namespace OracleThin.Classic

open Lib Lib.Parser Wire Ttc

section

variable {σ : Type} (ended : σ → Bool) (s : σ)

/-- The loop goes on, and the call has not ended. -/
def GoesOn (flow : Flow ProtocolError σ) : Prop :=
  ∃ s', flow = .next s' ∧ (ended s' = true → ended s = true)

/-- What a message does, depending on whether it is one that ends the call, where some errors report an end. -/
inductive Outcome (reports : ProtocolError → Prop) (ends : Prop) : Flow ProtocolError σ → Prop
  | goesOn {s'} (h : ¬ends) (hs : ended s' = true → ended s = true) : Outcome reports ends (.next s')
  | stops {s'} (h : ¬ends) : Outcome reports ends (.stop s')
  | ended {s'} (h : ends) (hs : ended s' = true) : Outcome reports ends (.next s')
  | endedAtOnce {s'} (h : ends) (hs : ended s' = true) : Outcome reports ends (.stop s')
  | failed {e} (h : ends) (he : reports e) : Outcome reports ends (.fail e)

end

section

variable {σ α : Type} {ended : σ → Bool} {s : σ} {plain ends : Prop} {reports : ProtocolError → Prop}
  {q p : Read (Flow ProtocolError σ)} {x y : Read α}

/-- A message whose cuts ask for more or go on, and that has an outcome. -/
structure Handles (ended : σ → Bool) (s : σ) (reports : ProtocolError → Prop) (plain ends : Prop)
    (q p : Read (Flow ProtocolError σ)) : Prop where
  tracks : plain → Tracks IsDecode plain (GoesOn ended s) q p
  yields : Yields (Outcome ended s reports ends) q

namespace Handles

theorem pure {flow : Flow ProtocolError σ} (h : Outcome ended s reports ends flow) :
    Handles ended s reports plain ends (pure flow) (pure flow) :=
  ⟨fun _ => tracks_pure _, yields_pure h⟩

theorem bind {f g : α → Read (Flow ProtocolError σ)} [h : Tracks IsDecode plain (fun _ => False) x y]
    (hf : ∀ a, Handles ended s reports plain ends (f a) (g a)) :
    Handles ended s reports plain ends (x >>= f) (y >>= g) :=
  ⟨fun hplain => h.bind fun a => (hf a).tracks hplain, yields_bind fun a => (hf a).yields⟩

/-- A message after which the loop goes on, and whose last field may be cut. -/
theorem goesOn {next : α → σ} (h : ¬ends) (hx : Tracks IsDecode plain (fun _ => True) x y)
    (hnext : ∀ a, ended (next a) = true → ended s = true) :
    Handles ended s reports plain ends (x >>= fun a => Pure.pure (.next (next a)))
      (y >>= fun a => Pure.pure (.next (next a))) :=
  ⟨fun _ => hx.bind_lax (fun _ => tracks_pure _) fun _ a _ => .pure ⟨_, rfl, hnext a⟩,
    yields_bind fun a => yields_pure (.goesOn h (hnext a))⟩

theorem ite {c : Prop} [Decidable c] {q' p' : Read (Flow ProtocolError σ)}
    (h : c → Handles ended s reports plain ends q p) (h' : ¬c → Handles ended s reports plain ends q' p') :
    Handles ended s reports plain ends (if c then q else q') (if c then p else p') :=
  ⟨fun hplain => tracks_ite (fun hc => (h hc).tracks hplain) fun hc => (h' hc).tracks hplain,
    yields_ite (fun hc => (h hc).yields) fun hc => (h' hc).yields⟩

end Handles

end

/-- A message loop that remembers whether the call has ended. -/
structure MessageLoop (σ : Type) where
  message : TtcReader → List UInt8 → σ → Read (Flow ProtocolError σ)
  start : σ
  ended : σ → Bool
  /-- The types of the messages that end a call. -/
  endsCall : UInt8 → Prop
  /-- The errors that report the end of a call. -/
  reports : ProtocolError → Prop
  not_ended_start : ended start = false
  tracks_message : ∀ (reader : TtcReader) (payload payload' : List UInt8) (s : σ), reader.plain = true →
    Tracks IsDecode (reader.plain = true) (GoesOn ended s) (message reader payload s)
      (message reader.driver payload' s)
  outcome : ∀ (reader : TtcReader) (payload : List UInt8) (s : σ) (b : List UInt8) (flow : Flow ProtocolError σ)
    (r : List UInt8), message reader payload s b = .ok (flow, r) →
      ∃ messageType ∈ b.head?, Outcome ended s reports (endsCall messageType) flow

namespace MessageLoop

variable {σ : Type} (loop : MessageLoop σ)

/-- The message ends the call. -/
def EndsCall (m : List UInt8) : Prop := ∃ messageType ∈ m.head?, loop.endsCall messageType

/-- The messages make up a response for the given reader: it reads them one after the other, and only the last one
ends the call. -/
structure Answers (reader : TtcReader) (ms : List (List UInt8)) : Prop where
  fits : TtcReader.withLimits ms.flatten reader.limits = .ok reader.driver
  run : ∃ result, Run (loop.message reader ms.flatten) loop.start ms result
  last : ∃ m ∈ ms.getLast?, loop.EndsCall m
  inner : ∀ m ∈ ms.dropLast, ¬loop.EndsCall m

/-- The end of the call has been seen. -/
def Finished (result : Result σ) : Prop :=
  (∃ s, result = .ok s ∧ loop.ended s = true) ∨ ∃ e, result = .error e ∧ loop.reports e

variable {loop} {reader : TtcReader} {payload m r : List UInt8} {ms : List (List UInt8)} {s s' : σ}
  {flow : Flow ProtocolError σ}

theorem outcome_message (hm : m ≠ []) (h : loop.message reader payload s (m ++ r) = .ok (flow, r)) :
    Outcome loop.ended s loop.reports (loop.EndsCall m) flow := by
  obtain ⟨messageType, htype, houtcome⟩ := loop.outcome reader payload s _ flow r h
  rw [List.head?_append_of_ne_nil _ hm] at htype
  have hends : loop.EndsCall m ↔ loop.endsCall messageType := by
    constructor
    · rintro ⟨messageType', htype', h⟩
      obtain rfl : messageType' = messageType := Option.mem_unique htype' htype
      exact h
    · intro h
      exact ⟨messageType, htype, h⟩
  rwa [propext hends]

/-- The driver reads the messages that the plain reader reads. -/
theorem run_driver (hplain : reader.plain = true) (payload' : List UInt8) {result : Result σ}
    (h : Run (loop.message reader payload) s ms result) : Run (loop.message reader.driver payload') s ms result := by
  have hstep : ∀ {s : σ} {flow : Flow ProtocolError σ} {input r : List UInt8},
      loop.message reader payload s input = .ok (flow, r) →
      loop.message reader.driver payload' s input = .ok (flow, r) := by
    intro s flow input r hmessage
    obtain ⟨c, hc, hsame, -⟩ := (loop.tracks_message reader payload payload' s hplain).follows _ _ _ hmessage
    rw [hc]
    exact hsame r List.prefix_rfl
  induction h with
  | nil => exact .nil
  | next hm h _ ih => exact .next hm (hstep h) ih
  | stop hm h => exact .stop hm (hstep h)
  | fail hm h => exact .fail hm (hstep h)

private theorem finished_of_run {result : Result σ} (h : Run (loop.message reader payload) s ms result)
    (hlast : ∃ m ∈ ms.getLast?, loop.EndsCall m) : loop.Finished result := by
  induction h with
  | nil =>
    obtain ⟨m, hm, -⟩ := hlast
    cases hm
  | @next s s' m ms result hm h hrest ih =>
    by_cases hmore : ms = []
    · subst hmore
      obtain ⟨m', hm', hends⟩ := hlast
      obtain rfl : m = m' := by simpa using hm'
      cases hrest
      cases outcome_message hm h with
      | goesOn hnot => exact absurd hends hnot
      | ended _ hs => exact Or.inl ⟨s', rfl, hs⟩
    · exact ih (by rwa [List.getLast?_cons_of_ne_nil hmore] at hlast)
  | @stop s s' m hm h =>
    obtain ⟨m', hm', hends⟩ := hlast
    obtain rfl : m = m' := by simpa using hm'
    cases outcome_message (r := []) hm (by rwa [List.append_nil]) with
    | stops hnot => exact absurd hends hnot
    | endedAtOnce _ hs => exact Or.inl ⟨s', rfl, hs⟩
  | @fail s m e hm h =>
    cases outcome_message (r := []) hm (by rwa [List.append_nil]) with
    | failed _ he => exact Or.inr ⟨e, rfl, he⟩

theorem Answers.finished (h : loop.Answers reader ms) (hplain : reader.plain = true) :
    loop.Finished (scan (loop.message reader.driver ms.flatten) ms.flatten.length loop.start ms.flatten) := by
  obtain ⟨result, hrun⟩ := h.run
  rw [scan_of_run (run_driver hplain ms.flatten hrun) le_rfl]
  exact finished_of_run hrun h.last

/-- On a proper prefix it asks for more or goes on without an end. -/
theorem Answers.unfinished (h : loop.Answers reader ms) (hplain : reader.plain = true) {t : List UInt8}
    (ht : t <+: ms.flatten) (hne : t ≠ ms.flatten) :
    Unfinished IsDecode (fun s => loop.ended s = false)
    (scan (loop.message reader.driver t) t.length loop.start t) := by
  obtain ⟨result, hrun⟩ := h.run
  have hinner : ∀ m ∈ ms.dropLast, ¬loop.EndsCall m ∧ m ≠ [] := fun m hm =>
    ⟨h.inner m hm, hrun.ne_nil m (List.dropLast_subset ms hm)⟩
  refine unfinished_of_prefix ?_ ?_ hrun loop.not_ended_start hinner ht hne le_rfl
  · intro s hs
    refine ((loop.tracks_message reader ms.flatten t s hplain).strictly hplain).mono fun flow => ?_
    rintro ⟨s', rfl, hs'⟩
    refine ⟨s', rfl, Bool.eq_false_iff.2 fun hended => ?_⟩
    exact absurd (hs' hended) (by rw [hs]; decide)
  · intro s m r s' hs hm hmessage
    cases outcome_message hm.2 hmessage with
    | goesOn _ hs' => exact Bool.eq_false_iff.2 fun hended => absurd (hs' hended) (by rw [hs]; decide)
    | ended hends => exact absurd hends hm.1

end MessageLoop

end OracleThin.Classic
