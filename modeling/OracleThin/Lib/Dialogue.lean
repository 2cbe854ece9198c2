import Mathlib

/-!
# Dialogues

A reader takes the packets of a peer one by one and reacts to each: it waits for the next, it replies, or it is
finished. The peer sends its packets in turns and starts the next turn when it gets a reply. `Leads` says that the
packets still to be read and the turns still to come bring the reader to its end exactly at the last packet of the
last turn.
-/

namespace Lib

/-- What a reader does with one packet. -/
inductive Reaction (σ ρ : Type*)
  | wait (s : σ)
  | reply (r : ρ) (s : σ)
  | finish

section

variable {σ π ρ ε : Type*} (react : σ → π → Except ε (Reaction σ ρ)) (fatal : ε → Prop) (P : σ → List π → Prop)
  (Q : List π → Prop)

/-- From state `s`, the packets `ps` and then, one for each reply, the turns `ts` lead to the end, or to a fatal
error. `P` holds of every state on the way and the packets left of its turn, `Q` of the packets left when a reply is
due. -/
inductive Leads : σ → List π → List (List π) → Prop
  | finish {s p} (hP : P s [p]) (h : react s p = .ok .finish) : Leads s [p] []
  | wait {s s' p ps ts} (hP : P s (p :: ps)) (h : react s p = .ok (.wait s')) (hrest : Leads s' ps ts) :
      Leads s (p :: ps) ts
  | reply {s s' p ps t ts r} (hP : P s (p :: ps)) (h : react s p = .ok (.reply r s')) (hQ : Q ps)
      (hrest : Leads s' (ps ++ t) ts) : Leads s (p :: ps) (t :: ts)
  | fails {s p ps ts e} (hP : P s (p :: ps)) (h : react s p = .error e) (hfatal : fatal e) : Leads s (p :: ps) ts

variable {react fatal P Q}

theorem Leads.holds {s : σ} {ps : List π} {ts : List (List π)} (h : Leads react fatal P Q s ps ts) : P s ps := by
  cases h with
  | finish hP | wait hP | reply hP | fails hP => exact hP

end

end Lib
