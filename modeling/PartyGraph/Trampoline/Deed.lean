import PartyGraph.Trampoline.Memory
import PartyGraph.Trampoline.Run

/-!
# Deeds

A deed is a job given by its script, in which the further jobs are deeds themselves. Being built
from the inside out, no chain of deeds each registering the next is infinite.

## Main definitions

* `Deed`: the jobs.
* `JobCommand`: what any job may ask of the world, to read and change the memory that it shares
  with others and to write to the log.

## Main results

* `Deed.wellFounded_below`: deeds are well founded.
-/

namespace PartyGraph

/-- A job given by its script. -/
inductive Deed (C : Type) (A : C → Type) : Type where
  | mk (script : Script (Deed C A) C A)

namespace Deed

variable {C : Type} {A : C → Type}

/-- What the deed does. -/
def script : Deed C A → Script (Deed C A) C A
  | mk s => s

/-- Whether deed `j` may register `k`. -/
def Below (k j : Deed C A) : Prop := j.script.Mentions k

mutual

theorem acc_below : (j : Deed C A) → Acc (Below (C := C) (A := A)) j
  | mk s => ⟨_, fun k hk => acc_below_of_mentions s k hk⟩

theorem acc_below_of_mentions : (s : Script (Deed C A) C A) → (k : Deed C A) → s.Mentions k →
    Acc (Below (C := C) (A := A)) k
  | .finish _, _, h => nomatch h
  | .register _ j _, _, .here => acc_below j
  | .register _ _ next, k, .after r h => acc_below_of_mentions (next r) k h
  | .look next, k, .look v h => acc_below_of_mentions (next v) k h
  | .ask _ next, k, .ask a h => acc_below_of_mentions (next a) k h

end

theorem wellFounded_below : WellFounded (Below (C := C) (A := A)) := ⟨acc_below⟩

variable {D : Type} {B : D → Type}

mutual

/-- The same deed over other commands. -/
def map (command : C → D) (back : (c : C) → B (command c) → A c) : Deed C A → Deed D B
  | mk s => mk (mapScript command back s)

/-- The script of such a deed. -/
def mapScript (command : C → D) (back : (c : C) → B (command c) → A c) :
    Script (Deed C A) C A → Script (Deed D B) D B
  | .finish e => .finish e
  | .register kind j next =>
    .register kind (map command back j) fun r => mapScript command back (next r)
  | .look next => .look fun v => mapScript command back (next v)
  | .ask c next => .ask (command c) fun b => mapScript command back (next (back c b))

end

end Deed

/-- What any job may ask of the world. -/
inductive JobCommand where
  | fetch
  | store (m : Memory)
  | note (line : String)

/-- Answers to `JobCommand`. -/
abbrev JobCommand.Answer : JobCommand → Type
  | fetch => Memory
  | store _ => Unit
  | note _ => Unit

end PartyGraph
