import WebSocket.Wire.Bytes

/-!
# Base64

Three octets become four characters, and a last group of one or two octets is filled up with `=`.
Reading accepts only what writing produces, so the padding must be there and the bits it leaves over
must be zero:

    decode text = some octets ↔ text = encode octets        (decode_eq_some_iff)
-/

namespace WebSocket.Base64

def alphabet : List Char :=
  "ABCDEFGHIJKLMNOPQRSTUVWXYZabcdefghijklmnopqrstuvwxyz0123456789+/".toList

def digit (n : Nat) : Char := alphabet.getD n '='

def value? (c : Char) : Option Nat :=
  let n := c.toNat
  if 65 ≤ n ∧ n ≤ 90 then some (n - 65)
  else if 97 ≤ n ∧ n ≤ 122 then some (n - 71)
  else if 48 ≤ n ∧ n ≤ 57 then some (n + 4)
  else if c = '+' then some 62
  else if c = '/' then some 63
  else none

def encode : Bytes → List Char
  | [] => []
  | [a] =>
    let n := a.toNat * 16
    [digit (n / 64), digit (n % 64), '=', '=']
  | [a, b] =>
    let n := (a.toNat * 256 + b.toNat) * 4
    [digit (n / 4096), digit (n / 64 % 64), digit (n % 64), '=']
  | a :: b :: c :: rest =>
    let n := (a.toNat * 256 + b.toNat) * 256 + c.toNat
    digit (n / 262144) :: digit (n / 4096 % 64) :: digit (n / 64 % 64) :: digit (n % 64)
      :: encode rest

/-- The octets for which characters stand, if they are the encoding of octets. -/
def decode : List Char → Option Bytes
  | [] => some []
  | [w, x, '=', '='] => do
    let w ← value? w
    let x ← value? x
    let n := w * 64 + x
    if n % 16 = 0 then some [UInt8.ofNat (n / 16)] else none
  | [w, x, y, '='] => do
    let w ← value? w
    let x ← value? x
    let y ← value? y
    let n := (w * 64 + x) * 64 + y
    if n % 4 = 0 then some [UInt8.ofNat (n / 1024), UInt8.ofNat (n / 4)] else none
  | w :: x :: y :: z :: rest => do
    let w ← value? w
    let x ← value? x
    let y ← value? y
    let z ← value? z
    let n := ((w * 64 + x) * 64 + y) * 64 + z
    let later ← decode rest
    some (UInt8.ofNat (n / 65536) :: UInt8.ofNat (n / 256) :: UInt8.ofNat n :: later)
  | _ => none

/-! ## Lemmas -/

theorem length_encode (octets : Bytes) : (encode octets).length = (octets.length + 2) / 3 * 4 := by
  fun_induction encode octets with
  | case1 => simp
  | case2 => simp
  | case3 => simp
  | case4 a b c rest n ih =>
    simp only [List.length_cons, ih]
    omega

theorem value?_digit {n : Nat} (h : n < 64) : value? (digit n) = some n := by
  revert n
  decide +kernel

theorem digit_ne_pad {n : Nat} (h : n < 64) : digit n ≠ '=' := by
  revert n
  decide +kernel

theorem digit_mem (n : Nat) : digit n ∈ '=' :: alphabet := by
  unfold digit
  rw [List.getD_eq_getElem?_getD]
  cases hget : alphabet[n]? with
  | none => exact List.mem_cons_self
  | some c => exact List.mem_cons_of_mem _ (List.mem_of_getElem? hget)

/-- What is encoded consists of digits and the padding. -/
theorem mem_encode {octets : Bytes} {c : Char} (h : c ∈ encode octets) : c ∈ '=' :: alphabet := by
  have hpad : '=' ∈ '=' :: alphabet := List.mem_cons_self
  fun_induction encode octets with
  | case1 => cases h
  | case2 a n =>
    simp only [List.mem_cons, List.not_mem_nil, or_false] at h
    rcases h with rfl | rfl | rfl | rfl
    · exact digit_mem _
    · exact digit_mem _
    · exact hpad
    · exact hpad
  | case3 a b n =>
    simp only [List.mem_cons, List.not_mem_nil, or_false] at h
    rcases h with rfl | rfl | rfl | rfl
    · exact digit_mem _
    · exact digit_mem _
    · exact digit_mem _
    · exact hpad
  | case4 a b c' rest n ih =>
    simp only [List.mem_cons] at h
    rcases h with rfl | rfl | rfl | rfl | h
    · exact digit_mem _
    · exact digit_mem _
    · exact digit_mem _
    · exact digit_mem _
    · exact ih h

theorem decode_encode (octets : Bytes) : decode (encode octets) = some octets := by
  fun_induction encode octets with
  | case1 => rfl
  | case2 a n =>
    have := a.toNat_lt
    have hx : (n / 64 * 64 + n % 64) = n := by omega
    rw [decode, value?_digit (by omega), value?_digit (by omega)]
    simp only [Option.bind_eq_bind, Option.bind_some, hx]
    rw [if_pos (by omega), show n / 16 = a.toNat by omega]
    simp
  | case3 a b n =>
    have := a.toNat_lt
    have := b.toNat_lt
    have hx : ((n / 4096 * 64 + n / 64 % 64) * 64 + n % 64) = n := by omega
    rw [decode, value?_digit (by omega), value?_digit (by omega), value?_digit (by omega)]
    · simp only [Option.bind_eq_bind, Option.bind_some, hx]
      rw [if_pos (by omega)]
      have ha : UInt8.ofNat (n / 1024) = a := by
        rw [show n / 1024 = a.toNat by omega]; simp
      have hb : UInt8.ofNat (n / 4) = b := by
        apply UInt8.toNat_inj.1
        simp only [UInt8.toNat_ofNat']
        omega
      rw [ha, hb]
    · exact digit_ne_pad (by omega)
  | case4 a b c rest n ih =>
    have := a.toNat_lt
    have := b.toNat_lt
    have := c.toNat_lt
    have hx : (((n / 262144 * 64 + n / 4096 % 64) * 64 + n / 64 % 64) * 64 + n % 64) = n := by
      omega
    rw [decode, value?_digit (by omega), value?_digit (by omega), value?_digit (by omega),
      value?_digit (by omega), ih]
    · simp only [Option.bind_eq_bind, Option.bind_some, hx]
      have ha : UInt8.ofNat (n / 65536) = a := by
        rw [show n / 65536 = a.toNat by omega]; simp
      have hb : UInt8.ofNat (n / 256) = b := by
        apply UInt8.toNat_inj.1
        simp only [UInt8.toNat_ofNat']
        omega
      have hc : UInt8.ofNat n = c := by
        apply UInt8.toNat_inj.1
        simp only [UInt8.toNat_ofNat']
        omega
      rw [ha, hb, hc]
    · intro _ h
      exact absurd h (digit_ne_pad (by omega))
    · intro h
      exact absurd h (digit_ne_pad (by omega))

theorem digit_of_value?_all : ∀ code < 128, ∀ n < 64,
    value? (Char.ofNat code) = some n → digit n = Char.ofNat code := by
  decide +kernel

theorem value?_lt {c : Char} {n : Nat} (h : value? c = some n) : c.toNat < 128 ∧ n < 64 := by
  simp only [value?] at h
  repeat' split at h
  all_goals simp_all
  all_goals omega

/-- A character that stands for a number is the digit of that number. -/
theorem digit_of_value? {c : Char} {n : Nat} (h : value? c = some n) : n < 64 ∧ c = digit n := by
  obtain ⟨hcode, hn⟩ := value?_lt h
  have hc : c = Char.ofNat c.toNat := (Char.ofNat_toNat c).symm
  rw [hc] at h ⊢
  exact ⟨hn, (digit_of_value?_all c.toNat hcode n hn h).symm⟩

theorem encode_of_decode {text : List Char} {octets : Bytes} (h : decode text = some octets) :
    text = encode octets := by
  fun_induction decode text generalizing octets with
  | case1 => cases h; rfl
  | case2 w x =>
    simp only [Option.bind_eq_bind, Option.bind_eq_some_iff] at h
    obtain ⟨w', hw, x', hx, h⟩ := h
    obtain ⟨hw', rfl⟩ := digit_of_value? hw
    obtain ⟨hx', rfl⟩ := digit_of_value? hx
    split at h
    · rename_i hpad
      cases h
      have hn : (UInt8.ofNat ((w' * 64 + x') / 16)).toNat * 16 = w' * 64 + x' := by
        rw [UInt8.toNat_ofNat']
        omega
      simp only [encode, hn]
      rw [show (w' * 64 + x') / 64 = w' by omega, show (w' * 64 + x') % 64 = x' by omega]
    · cases h
  | case3 w x y _ =>
    simp only [Option.bind_eq_bind, Option.bind_eq_some_iff] at h
    obtain ⟨w', hw, x', hx, y', hy, h⟩ := h
    obtain ⟨hw', rfl⟩ := digit_of_value? hw
    obtain ⟨hx', rfl⟩ := digit_of_value? hx
    obtain ⟨hy', rfl⟩ := digit_of_value? hy
    split at h
    · rename_i hpad
      cases h
      have hn : ((UInt8.ofNat (((w' * 64 + x') * 64 + y') / 1024)).toNat * 256 +
          (UInt8.ofNat (((w' * 64 + x') * 64 + y') / 4)).toNat) * 4 = (w' * 64 + x') * 64 + y' := by
        simp only [UInt8.toNat_ofNat']
        omega
      simp only [encode, hn]
      rw [show ((w' * 64 + x') * 64 + y') / 4096 = w' by omega,
        show ((w' * 64 + x') * 64 + y') / 64 % 64 = x' by omega,
        show ((w' * 64 + x') * 64 + y') % 64 = y' by omega]
    · cases h
  | case4 w x y z rest _ _ ih =>
    simp only [Option.bind_eq_bind, Option.bind_eq_some_iff] at h
    obtain ⟨w', hw, x', hx, y', hy, z', hz, later, hlater, h⟩ := h
    obtain ⟨hw', rfl⟩ := digit_of_value? hw
    obtain ⟨hx', rfl⟩ := digit_of_value? hx
    obtain ⟨hy', rfl⟩ := digit_of_value? hy
    obtain ⟨hz', rfl⟩ := digit_of_value? hz
    obtain rfl := ih hlater
    cases h
    have hn : ((UInt8.ofNat ((((w' * 64 + x') * 64 + y') * 64 + z') / 65536)).toNat * 256 +
        (UInt8.ofNat ((((w' * 64 + x') * 64 + y') * 64 + z') / 256)).toNat) * 256 +
          (UInt8.ofNat (((w' * 64 + x') * 64 + y') * 64 + z')).toNat =
            ((w' * 64 + x') * 64 + y') * 64 + z' := by
      simp only [UInt8.toNat_ofNat']
      omega
    simp only [encode, hn]
    rw [show (((w' * 64 + x') * 64 + y') * 64 + z') / 262144 = w' by omega,
      show (((w' * 64 + x') * 64 + y') * 64 + z') / 4096 % 64 = x' by omega,
      show (((w' * 64 + x') * 64 + y') * 64 + z') / 64 % 64 = y' by omega,
      show (((w' * 64 + x') * 64 + y') * 64 + z') % 64 = z' by omega]
  | case5 => cases h

/-- Reading accepts exactly what writing produces. -/
theorem decode_eq_some_iff {text : List Char} {octets : Bytes} :
    decode text = some octets ↔ text = encode octets := by
  constructor
  · exact encode_of_decode
  · rintro rfl
    exact decode_encode octets

end WebSocket.Base64
