import WebSocket.Wire.Bytes

/-!
# Masking

A client hides every payload under a key of four octets that it chooses for the frame: octet `i`
of the payload is combined by exclusive or with octet `i % 4` of the key.  Masking twice with one
key gives the payload back (`apply_apply`), so one function masks and unmasks.
-/

namespace WebSocket

/-- The four octets under which a client hides a payload. -/
structure MaskKey where
  first : UInt8
  second : UInt8
  third : UInt8
  fourth : UInt8
  deriving DecidableEq, Repr

namespace MaskKey

/-- The octets of the key, as they stand in a frame. -/
def toBytes (key : MaskKey) : Bytes := [key.first, key.second, key.third, key.fourth]

/-- The key that four octets make. -/
def ofBytes? : Bytes → Option MaskKey
  | [a, b, c, d] => some ⟨a, b, c, d⟩
  | _ => none

/-- The octet of the key that covers octet `i` of a payload. -/
def octet (key : MaskKey) (i : Nat) : UInt8 :=
  match i % 4 with
  | 0 => key.first
  | 1 => key.second
  | 2 => key.third
  | _ => key.fourth

/-- The key that covers a payload from its second octet on. -/
def rotate (key : MaskKey) : MaskKey := ⟨key.second, key.third, key.fourth, key.first⟩

/-- Combine octets with the key and put them after those of `done`, of which the last stands
first. -/
def applyAfter (done : Bytes) (key : MaskKey) : Bytes → Bytes
  | [] => done.reverse
  | b :: rest => applyAfter ((b ^^^ key.first) :: done) key.rotate rest

/-- Combine a payload with the key, octet by octet. -/
def apply (key : MaskKey) (payload : Bytes) : Bytes := applyAfter [] key payload

/-! ## Lemmas -/

theorem octet_rotate (key : MaskKey) (i : Nat) : key.rotate.octet i = key.octet (i + 1) := by
  have h : i % 4 < 4 := Nat.mod_lt _ (by decide)
  unfold octet
  rw [Nat.add_mod]
  generalize i % 4 = k at h
  match k, h with
  | 0, _ | 1, _ | 2, _ | 3, _ => rfl

theorem applyAfter_eq (done : Bytes) (key : MaskKey) (payload : Bytes) :
    applyAfter done key payload =
      done.reverse ++ payload.mapIdx fun i b => b ^^^ key.octet i := by
  induction payload generalizing done key with
  | nil => simp [applyAfter]
  | cons b rest ih =>
    have first : key.octet 0 = key.first := rfl
    simp [applyAfter, ih, List.mapIdx_cons, octet_rotate, first]

/-- Every octet of a payload is combined with the octet of the key that covers it. -/
theorem apply_eq_mapIdx (key : MaskKey) (payload : Bytes) :
    key.apply payload = payload.mapIdx fun i b => b ^^^ key.octet i := by
  simp [apply, applyAfter_eq]

@[simp] theorem length_toBytes (key : MaskKey) : key.toBytes.length = 4 := rfl

@[simp] theorem length_apply (key : MaskKey) (payload : Bytes) :
    (key.apply payload).length = payload.length := by simp [apply_eq_mapIdx]

@[simp] theorem getElem_apply (key : MaskKey) (payload : Bytes) (i : Nat)
    (h : i < (key.apply payload).length) :
    (key.apply payload)[i] = payload.get ⟨i, by simpa using h⟩ ^^^ key.octet i := by
  simp [apply_eq_mapIdx]

@[simp] theorem apply_apply (key : MaskKey) (payload : Bytes) :
    key.apply (key.apply payload) = payload := by
  apply List.ext_getElem
  · simp
  · intro i h₁ h₂
    simp only [getElem_apply, List.get_eq_getElem, UInt8.xor_assoc, UInt8.xor_self,
      UInt8.xor_zero]

end MaskKey

end WebSocket
