import Mathlib.Data.List.Basic

/-! Base64 with the standard alphabet and padding. -/
namespace LearnPg.Basis.Base64

def alphabet : List Char :=
  "ABCDEFGHIJKLMNOPQRSTUVWXYZabcdefghijklmnopqrstuvwxyz0123456789+/".toList

def digit (n : Nat) : Char := alphabet.getD n '='

def value (c : Char) : Option Nat := alphabet.findIdx? (· == c)

/-- Three bytes make four digits; a shorter last group is padded. -/
def encode : List UInt8 → List Char
  | [] => []
  | [a] =>
    let n := a.toNat * 16
    [digit (n / 64), digit (n % 64), '=', '=']
  | [a, b] =>
    let n := a.toNat * 1024 + b.toNat * 4
    [digit (n / 4096), digit (n / 64 % 64), digit (n % 64), '=']
  | a :: b :: c :: rest =>
    let n := a.toNat * 65536 + b.toNat * 256 + c.toNat
    digit (n / 262144) :: digit (n / 4096 % 64) :: digit (n / 64 % 64) :: digit (n % 64) ::
      encode rest

/-- A group whose last digit is padding. -/
def decodePadded (a b c : Char) : Option (List UInt8) := do
  let a ← value a
  let b ← value b
  if c = '=' then return [.ofNat ((a * 64 + b) / 16)]
  else
    let c ← value c
    let n := a * 4096 + b * 64 + c
    return [.ofNat (n / 1024), .ofNat (n / 4)]

def decodeGroup (a b c d : Char) : Option (List UInt8) := do
  let a ← value a
  let b ← value b
  let c ← value c
  let d ← value d
  let n := a * 262144 + b * 4096 + c * 64 + d
  return [.ofNat (n / 65536), .ofNat (n / 256), .ofNat n]

def decode : List Char → Option (List UInt8)
  | [] => some []
  | a :: b :: c :: d :: rest =>
    if d = '=' then if rest = [] then decodePadded a b c else none
    else do
      let bytes ← decodeGroup a b c d
      let more ← decode rest
      return bytes ++ more
  | _ => none

theorem value_digit : ∀ n < 64, value (digit n) = some n := by decide +kernel

theorem digit_ne_pad (n : Nat) (h : n < 64) : digit n ≠ '=' := by
  intro hpad
  have hvalue := value_digit n h
  have hnone : value '=' = none := by decide +kernel
  rw [hpad, hnone] at hvalue
  cases hvalue

theorem byte_ofNat {a : UInt8} {n : Nat} (h : n % 256 = a.toNat) : UInt8.ofNat n = a := by
  apply UInt8.toNat_inj.mp
  rw [UInt8.toNat_ofNat']
  exact h

theorem decodeGroup_encode (a b c : UInt8) :
    let n := a.toNat * 65536 + b.toNat * 256 + c.toNat
    decodeGroup (digit (n / 262144)) (digit (n / 4096 % 64)) (digit (n / 64 % 64))
      (digit (n % 64)) = some [a, b, c] := by
  have ha := a.toNat_lt
  have hb := b.toNat_lt
  have hc := c.toNat_lt
  intro n
  unfold decodeGroup
  rw [value_digit _ (by omega), value_digit _ (by omega), value_digit _ (by omega),
    value_digit _ (by omega)]
  have hn : n / 262144 * 262144 + n / 4096 % 64 * 4096 + n / 64 % 64 * 64 + n % 64 = n := by
    omega
  simp only [Option.bind_eq_bind, Option.bind_some, hn]
  rw [byte_ofNat (a := a) (by omega), byte_ofNat (a := b) (by omega),
    byte_ofNat (a := c) (by omega)]
  rfl

theorem decodePadded_one (a : UInt8) :
    decodePadded (digit (a.toNat * 16 / 64)) (digit (a.toNat * 16 % 64)) '=' = some [a] := by
  have ha := a.toNat_lt
  unfold decodePadded
  rw [value_digit _ (by omega), value_digit _ (by omega)]
  have hn : a.toNat * 16 / 64 * 64 + a.toNat * 16 % 64 = a.toNat * 16 := by omega
  simp only [Option.bind_eq_bind, Option.bind_some, if_true, hn]
  rw [byte_ofNat (a := a) (by omega)]
  rfl

theorem decodePadded_two (a b : UInt8) :
    let n := a.toNat * 1024 + b.toNat * 4
    decodePadded (digit (n / 4096)) (digit (n / 64 % 64)) (digit (n % 64)) = some [a, b] := by
  have ha := a.toNat_lt
  have hb := b.toNat_lt
  intro n
  unfold decodePadded
  rw [value_digit _ (by omega), value_digit _ (by omega), value_digit _ (by omega)]
  have hn : n / 4096 * 4096 + n / 64 % 64 * 64 + n % 64 = n := by omega
  simp only [Option.bind_eq_bind, Option.bind_some, digit_ne_pad _ (Nat.mod_lt n (by omega)),
    if_false, hn]
  rw [byte_ofNat (a := a) (by omega), byte_ofNat (a := b) (by omega)]
  rfl

theorem decode_encode (bytes : List UInt8) : decode (encode bytes) = some bytes := by
  induction bytes using encode.induct with
  | case1 => rfl
  | case2 a => exact decodePadded_one a
  | case3 a b => exact decodePadded_two a b
  | case4 a b c rest ih =>
    unfold encode decode
    rw [if_neg (digit_ne_pad _ (Nat.mod_lt _ (by omega))), decodeGroup_encode, ih]
    rfl

theorem decodeGroup_length {a b c d : Char} {bytes : List UInt8}
    (h : decodeGroup a b c d = some bytes) : bytes.length = 3 := by
  unfold decodeGroup at h
  simp only [Option.bind_eq_bind, Option.bind_eq_some_iff] at h
  obtain ⟨a, _, b, _, c, _, d, _, h⟩ := h
  cases h
  rfl

theorem decode_length {text : List Char} {bytes : List UInt8} (hpad : '=' ∉ text)
    (h : decode text = some bytes) : 4 * bytes.length = 3 * text.length := by
  induction text using decode.induct generalizing bytes with
  | case1 =>
    cases h
    rfl
  | case2 => simp at hpad
  | case3 => simp at hpad
  | case4 a b c d rest hd ih =>
    rw [decode, if_neg hd] at h
    simp only [Option.bind_eq_bind, Option.bind_eq_some_iff] at h
    obtain ⟨group, hgroup, more, hmore, h⟩ := h
    cases h
    have hrest := ih (fun hmem => hpad (by simp [hmem])) hmore
    have hthree := decodeGroup_length hgroup
    simp only [List.length_append, List.length_cons]
    omega
  | case5 text h1 h2 =>
    unfold decode at h
    split at h
    · exact absurd rfl h1
    · exact absurd rfl (h2 _ _ _ _ _)
    · cases h

theorem mem_encode {bytes : List UInt8} : ∀ c ∈ encode bytes, ∃ n < 65, c = digit n := by
  have hpad : '=' = digit 64 := by decide +kernel
  induction bytes using encode.induct with
  | case1 => simp [encode]
  | case2 a =>
    have ha := a.toNat_lt
    intro c hc
    simp only [encode, List.mem_cons, List.not_mem_nil, or_false] at hc
    obtain rfl | rfl | rfl | rfl := hc
    · exact ⟨_, by omega, rfl⟩
    · exact ⟨_, by omega, rfl⟩
    · exact ⟨64, by decide, hpad⟩
    · exact ⟨64, by decide, hpad⟩
  | case3 a b =>
    have ha := a.toNat_lt
    have hb := b.toNat_lt
    intro c hc
    simp only [encode, List.mem_cons, List.not_mem_nil, or_false] at hc
    obtain rfl | rfl | rfl | rfl := hc
    · exact ⟨_, by omega, rfl⟩
    · exact ⟨_, by omega, rfl⟩
    · exact ⟨_, by omega, rfl⟩
    · exact ⟨64, by decide, hpad⟩
  | case4 a b c rest ih =>
    have ha := a.toNat_lt
    have hb := b.toNat_lt
    have hc := c.toNat_lt
    intro d hd
    simp only [encode, List.mem_cons] at hd
    obtain rfl | rfl | rfl | rfl | hd := hd
    · exact ⟨_, by omega, rfl⟩
    · exact ⟨_, by omega, rfl⟩
    · exact ⟨_, by omega, rfl⟩
    · exact ⟨_, by omega, rfl⟩
    · exact ih d hd

end LearnPg.Basis.Base64
