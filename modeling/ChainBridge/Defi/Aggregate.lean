/-
All or nothing: values of named slots are handed on only when every one of them has arrived.

`aggregate` takes what each loader came to, in declared order. The values go into the sink in that order; of several
failures the one declared first is reported, and then nothing goes into the sink.

`gather` runs the loaders. They start together and finish in the order of their delays, those that finish together in
declared order; each notes what it came to at the place where it was declared. So neither which loader fails first nor
which is slow makes a difference to what is handed on, only to when that is.
-/

namespace ChainBridge.Defi

/-- the slot that failed, and why -/
structure Failure (S E : Type) where
  slot : S
  error : E
deriving DecidableEq, Repr

/-- the values of all slots, or the first failure in declared order -/
def collect {S T E : Type} : List (S × Except E T) → Except (Failure S E) (List (S × T))
  | [] => .ok []
  | (slot, .error e) :: _ => .error ⟨slot, e⟩
  | (slot, .ok v) :: rest => (collect rest).map ((slot, v) :: ·)

/-- fills the sink with every value, or leaves it as it was -/
def aggregate {S T E K : Type} (fill : K → S → T → K) (sink : K) (outcomes : List (S × Except E T)) :
    K × Except (Failure S E) Unit :=
  match collect outcomes with
  | .error f => (sink, .error f)
  | .ok values => (values.foldl (fun k v => fill k v.1 v.2) sink, .ok ())

/-! ## Loaders that run at the same time -/

/-- what a slot is loaded by: how long it takes and what it comes to -/
structure Loader (S T E : Type) where
  slot : S
  delay : Nat
  outcome : Except E T

variable {S T E K : Type}

/-- what loaders have come to so far, by the place where they were declared -/
abbrev Progress (T E : Type) := List (Option (Except E T))

namespace Progress

def start (loaders : Nat) : Progress T E := List.replicate loaders none

/-- the loader at a place finishes -/
def finish (p : Progress T E) (place : Nat) (outcome : Except E T) : Progress T E := p.set place (some outcome)

/-- what every loader came to, once all have finished -/
def complete? : Progress T E → Option (List (Except E T))
  | [] => some []
  | none :: _ => none
  | some outcome :: rest => (complete? rest).map (outcome :: ·)

end Progress

/-- loaders and their places, in the order in which they finish -/
def arrivals (loaders : List (Loader S T E)) : List (Loader S T E × Nat) :=
  loaders.zipIdx.mergeSort fun a b => decide (a.1.delay ≤ b.1.delay)

/-- lets loaders finish one after the other until the last has; when that is, and what all of them came to -/
def join (now : Nat) (p : Progress T E) (coming : List (Loader S T E × Nat)) : Option (Nat × List (Except E T)) :=
  match p.complete?, coming with
  | some outcomes, _ => some (now, outcomes)
  | none, [] => none
  | none, (l, place) :: rest => join l.delay (p.finish place l.outcome) rest

/-- runs loaders apart from their slots, then aggregates under each slot what came at its place; when that is done -/
def gather (fill : K → S → T → K) (sink : K) (loaders : List (Loader S T E)) :
    Option (Nat × K × Except (Failure S E) Unit) :=
  let slots := loaders.map Loader.slot
  (join 0 (.start loaders.length) (arrivals loaders)).map fun (now, outcomes) =>
    (now, aggregate fill sink (slots.zip outcomes))

end ChainBridge.Defi
