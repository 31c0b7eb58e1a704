/-!
# Wrapping states

What is known of how a callable came to be. A callable is bound if fixing arguments of another
callable made it, and a proxy if it was made to look like another callable. Of both it is known
whether the last wrap did it and whether an earlier one did: `demote` turns what is into what was,
and a further wrap forgets nothing.
-/

namespace CallableKinds

/-- What a callable is, by its last wrap, and what it was before. -/
structure WrapState where
  isProxy : Bool
  isBound : Bool
  wasProxy : Bool
  wasBound : Bool
  deriving Repr, DecidableEq, Inhabited

namespace WrapState

/-- The state of a callable that no wrap made. -/
def unwrapped : WrapState := ⟨false, false, false, false⟩

/-- The state after being made to look like a callable without history. -/
def proxy : WrapState := ⟨true, false, false, false⟩

/-- The state after fixing arguments of a callable without history. -/
def bound : WrapState := ⟨false, true, false, false⟩

/-- All that is known in one of two states. -/
def union (s t : WrapState) : WrapState :=
  ⟨s.isProxy || t.isProxy, s.isBound || t.isBound, s.wasProxy || t.wasProxy,
    s.wasBound || t.wasBound⟩

/-- What is becomes what was. -/
def demote (s : WrapState) : WrapState :=
  ⟨false, false, s.wasProxy || s.isProxy, s.wasBound || s.isBound⟩

/-- The state of a result after a wrap of the given kind, from the states of the target and of the
result before it. -/
def afterWrap (kind target result : WrapState) : WrapState :=
  (kind.union target.demote).union result.demote

/-- The four facts as the lowest bits of a number, from the present to the past. -/
def ofBits (n : Int) : WrapState :=
  let bit (i : Nat) : Bool := n >>> i % 2 == 1
  ⟨bit 0, bit 1, bit 2, bit 3⟩

/-- The number whose lowest bits are the four facts. -/
def toBits (s : WrapState) : Nat :=
  s.isProxy.toNat + 2 * s.isBound.toNat + 4 * s.wasProxy.toNat + 8 * s.wasBound.toNat

/-- Demotion on numbers: only the four lowest bits are changed. -/
def demoteBits (n : Int) : Int := n - n % 16 + (ofBits n).demote.toBits

@[simp] theorem isProxy_demote (s : WrapState) : s.demote.isProxy = false := rfl

@[simp] theorem isBound_demote (s : WrapState) : s.demote.isBound = false := rfl

@[simp] theorem demote_unwrapped : unwrapped.demote = unwrapped := rfl

@[simp] theorem union_unwrapped (s : WrapState) : s.union unwrapped = s := by
  simp [union, unwrapped]

end WrapState

end CallableKinds
