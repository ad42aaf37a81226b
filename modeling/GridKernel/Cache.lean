import GridKernel.Error

namespace GridKernel

structure CachedProgram (κ α : Type) where
  key : κ
  functions : List String
  artifact : α

abbrev Outcome (κ α : Type) := Except KernelError (CachedProgram κ α)

inductive Slot (κ α : Type) where
  | ready (program : CachedProgram κ α)
  | pending (flight : Nat)

structure CacheStats where
  hits : Nat := 0
  misses : Nat := 0
  waits : Nat := 0
  compiles : Nat := 0
  failures : Nat := 0
  evictions : Nat := 0
  invalidations : Nat := 0
deriving DecidableEq, Inhabited

-- With a capacity, `order` lists the finished keys from the one settled longest ago.
-- Flights are numbered in the order they start.
structure Cache (κ α : Type) where
  slots : List (κ × Slot κ α) := []
  order : List κ := []
  stats : CacheStats := {}
  capacity : Option Nat := none
  flights : Nat := 0
  published : List (Nat × Outcome κ α) := []

inductive Lookup (κ α : Type) where
  | hit (program : CachedProgram κ α)
  | joined (flight : Nat)
  | leads (flight : Nat)

namespace Cache

variable {κ α : Type} [DecidableEq κ]

-- An empty cache. A bounded one holds at least one program.
def new (capacity : Option Nat) : Cache κ α := { capacity := capacity.map (max · 1) }

def slot? (c : Cache κ α) (key : κ) : Option (Slot κ α) :=
  (c.slots.find? (·.1 = key)).map Prod.snd

def isReady : Slot κ α → Bool
  | .ready _ => true
  | .pending _ => false

def size (c : Cache κ α) : Nat := c.slots.countP fun s => isReady s.2

def get? (c : Cache κ α) (key : κ) : Option (CachedProgram κ α) :=
  match c.slot? key with
  | some (.ready program) => some program
  | _ => none

def without (key : κ) (slots : List (κ × Slot κ α)) : List (κ × Slot κ α) :=
  slots.filter (·.1 ≠ key)

def withSlot (key : κ) (slot : Slot κ α) (slots : List (κ × Slot κ α)) : List (κ × Slot κ α) :=
  (key, slot) :: without key slots

def lookup (c : Cache κ α) (key : κ) : Cache κ α × Lookup κ α :=
  match c.slot? key with
  | some (.ready program) => ({ c with stats.hits := c.stats.hits + 1 }, .hit program)
  | some (.pending flight) => ({ c with stats.waits := c.stats.waits + 1 }, .joined flight)
  | none =>
    ({ c with
        slots := withSlot key (.pending c.flights) c.slots
        stats.misses := c.stats.misses + 1
        flights := c.flights + 1 }, .leads c.flights)

-- Drop the longest settled programs until at most `capacity` are left.
def evict (capacity : Nat) : List κ → Cache κ α → Cache κ α
  | [], c => { c with order := [] }
  | oldest :: rest, c =>
    if c.size ≤ capacity then { c with order := oldest :: rest }
    else
      match c.get? oldest with
      | some _ =>
        evict capacity rest
          { c with slots := without oldest c.slots, stats.evictions := c.stats.evictions + 1 }
      | none => evict capacity rest c

-- Record the outcome of a build: a program takes the slot of its key, a failure frees it.
def settle (c : Cache κ α) (key : κ) (outcome : Outcome κ α) : Cache κ α :=
  match outcome with
  | .ok program =>
    let stored : Cache κ α :=
      { c with
        slots := withSlot key (.ready program) c.slots
        stats.compiles := c.stats.compiles + 1 }
    match c.capacity with
    | none => stored
    | some capacity => evict capacity (c.order ++ [key]) stored
  | .error _ =>
    { c with slots := without key c.slots, stats.failures := c.stats.failures + 1 }

def publish (c : Cache κ α) (flight : Nat) (outcome : Outcome κ α) : Cache κ α :=
  { c with published := (flight, outcome) :: c.published }

def received? (c : Cache κ α) (flight : Nat) : Option (Outcome κ α) :=
  (c.published.find? (·.1 = flight)).map Prod.snd

def finish (c : Cache κ α) (key : κ) (flight : Nat) (outcome : Outcome κ α) : Cache κ α :=
  (c.settle key outcome).publish flight outcome

def aborted : Outcome κ α := .error (.compilationFailed .aborted)

def uses (name : String) : Slot κ α → Bool
  | .ready program => program.functions.contains name
  | .pending _ => false

def invalidate (c : Cache κ α) (name : String) : Cache κ α × Nat :=
  let kept := c.slots.filter fun s => !uses name s.2
  let removed := c.slots.length - kept.length
  if removed = 0 then (c, 0)
  else
    ({ c with
        slots := kept
        order := c.order.filter fun key => kept.any (·.1 = key)
        stats.invalidations := c.stats.invalidations + removed }, removed)

def clear (c : Cache κ α) : Cache κ α :=
  { c with slots := c.slots.filter fun s => !isReady s.2, order := [] }

end Cache

def CacheStats.debugText (s : CacheStats) : String :=
  "CacheStats \x7b hits: " ++ toString s.hits ++ ", misses: " ++ toString s.misses ++ ", waits: " ++
    toString s.waits ++ ", compiles: " ++ toString s.compiles ++ ", failures: " ++
    toString s.failures ++ ", evictions: " ++ toString s.evictions ++ ", invalidations: " ++
    toString s.invalidations ++ " \x7d"

def CachedProgram.debugText {κ α : Type} (p : CachedProgram κ α) (key : String) : String :=
  "CompiledProgram \x7b signature: " ++ key ++ ", backend: \"software\", functions: " ++
    Text.listed (p.functions.map Text.quoted) ++ " \x7d"

end GridKernel
