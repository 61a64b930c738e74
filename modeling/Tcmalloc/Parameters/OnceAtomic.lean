import Mathlib.Order.Basic

/-!
# Atomics initialised on first use

A knob whose default is only known at run time cannot be a constant-initialised
global without an initialisation-order fiasco, so `parameters.cc` keeps it as a
function-local pair

    ABSL_CONST_INIT static absl::once_flag flag;
    ABSL_CONST_INIT static std::atomic<T> v{c};

behind an accessor that runs `LowLevelCallOnce(&flag, [&] { v.store(d); })`
and hands back `v`. Every getter loads through the accessor and every setter
stores through it, so whichever comes first, the default `d` is written before
any setting and never after one.

`OnceAtomic` is that pair. `callOnce` is the accessor, and `current` is the
value the knob stands at – what a load through the accessor would see. The
lemmas below say that a read leaves `current` as it was and a write sets it,
which is all the registry of `Tcmalloc.Parameters.Lazy` needs.
-/

namespace Tcmalloc

/-- **A function-local atomic behind an `absl::once_flag`.** -/
structure OnceAtomic (α : Type) where
  /-- Whether the once-flag has run its initialiser. -/
  done : Bool
  /-- The value the atomic holds. -/
  v : α
deriving DecidableEq, Repr

namespace OnceAtomic

variable {α β : Type}

/-- The pair as the program starts: the flag not yet run, the atomic at its
`ABSL_CONST_INIT` value `c`. -/
def constInit (c : α) : OnceAtomic α := ⟨false, c⟩

/-- `LowLevelCallOnce(&flag, [&] { v.store(d); })`: the initialiser stores
`d` unless the flag has already run. -/
def callOnce (d : α) (a : OnceAtomic α) : OnceAtomic α :=
  if a.done then a else ⟨true, d⟩

/-- `v.store(x)`. -/
def store (x : α) (a : OnceAtomic α) : OnceAtomic α := { a with v := x }

/-- **The value the knob stands at**: the atomic once the flag has run, the
initialiser's `d` before. -/
def current (d : α) (a : OnceAtomic α) : α := if a.done then a.v else d

/-- A getter `decode(accessor().load())`. -/
def read (d : α) (decode : α → β) (a : OnceAtomic α) : β × OnceAtomic α :=
  (decode (a.callOnce d).v, a.callOnce d)

/-- A setter `accessor().store(encode(x))`. -/
def write (d : α) (encode : β → α) (x : β) (a : OnceAtomic α) : OnceAtomic α :=
  (a.callOnce d).store (encode x)

variable {d c x : α} {a : OnceAtomic α} {decode : α → β} {encode : β → α} {y : β}

@[simp] theorem constInit_done : (constInit c).done = false := rfl

@[simp] theorem current_constInit : (constInit c).current d = d := rfl

@[simp] theorem store_done : (a.store x).done = a.done := rfl

@[simp] theorem store_v : (a.store x).v = x := rfl

@[simp] theorem callOnce_done : (a.callOnce d).done = true := by
  unfold callOnce; split <;> simp_all

/-- **The initialiser never runs twice**: once the flag has run, the accessor
changes nothing. -/
theorem callOnce_of_done (h : a.done = true) : a.callOnce d = a := by
  simp [callOnce, h]

@[simp] theorem callOnce_v : (a.callOnce d).v = a.current d := by
  unfold callOnce current; split <;> rfl

@[simp] theorem current_callOnce : (a.callOnce d).current d = a.current d := by
  simp [current]

@[simp] theorem read_fst : (a.read d decode).1 = decode (a.current d) := by
  simp [read]

@[simp] theorem read_snd : (a.read d decode).2 = a.callOnce d := rfl

@[simp] theorem write_done : (a.write d encode y).done = true := by
  simp [write, store]

/-- **A write is never lost**: after a setter the knob stands at what it
stored, whatever the flag was before. -/
@[simp] theorem current_write : (a.write d encode y).current d = encode y := by
  simp [current, write, store]

/-- **Reading a family of knobs after one is replaced**: only the replaced
knob reads differently. -/
theorem current_update {κ : Type} [DecidableEq κ] (f : κ → OnceAtomic α) (d : κ → α)
    (k : κ) (a' : OnceAtomic α) :
    (fun j => (Function.update f k a' j).current (d j)) =
      Function.update (fun j => (f j).current (d j)) k (a'.current (d k)) :=
  funext (Function.apply_update (fun j (b : OnceAtomic α) => b.current (d j)) f k a')

end OnceAtomic

end Tcmalloc
