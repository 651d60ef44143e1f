import LearnPg.Basis.Json

/-! Whole numbers rounded to a number of significant bits, as floating point does it, and JSON
values with their number literals changed one by one. -/
namespace LearnPg.Basis.Doubles

open Json

/-- The nearest to `n` of the numbers with `p` significant bits, of two of them the one whose last
bit is even. There is no greatest exponent. -/
def nearest (p n : Nat) : Nat :=
  let unit := 2 ^ (n.log2 + 1 - p)
  let rest := 2 * (n % unit)
  let down := n / unit
  if rest < unit ∨ rest = unit ∧ down % 2 = 0 then down * unit else (down + 1) * unit

/-- `n` has at most `p` bits between its first one and its last. -/
def Fits (p n : Nat) : Prop := ∃ bits exponent, bits < 2 ^ p ∧ n = bits * 2 ^ exponent

section

variable {p n : Nat}

theorem fits_of_lt (h : n < 2 ^ p) : Fits p n := ⟨n, 0, h, by rw [pow_zero, mul_one]⟩

theorem div_unit_lt : n / 2 ^ (n.log2 + 1 - p) < 2 ^ p := by
  rw [Nat.div_lt_iff_lt_mul (Nat.two_pow_pos _), ← pow_add]
  exact Nat.lt_log2_self.trans_le (Nat.pow_le_pow_right (by decide) (by omega))

theorem unit_dvd_of_fits (hn : n ≠ 0) (h : Fits p n) : 2 ^ (n.log2 + 1 - p) ∣ n := by
  obtain ⟨bits, exponent, hbits, rfl⟩ := h
  have hlt : bits * 2 ^ exponent < 2 ^ (p + exponent) := by
    rw [pow_add]
    exact Nat.mul_lt_mul_of_pos_right hbits (Nat.two_pow_pos _)
  have hlog := (Nat.log2_lt hn).mpr hlt
  exact (pow_dvd_pow 2 (by omega)).trans (dvd_mul_left _ _)

/-- Rounding leaves alone just what fits. -/
theorem nearest_eq_self_iff : nearest p n = n ↔ Fits p n := by
  rcases eq_or_ne n 0 with rfl | hn
  · exact ⟨fun _ => fits_of_lt (Nat.two_pow_pos _), fun _ => by simp [nearest]⟩
  have hdiv := Nat.div_add_mod' n (2 ^ (n.log2 + 1 - p))
  constructor
  · intro h
    refine ⟨n / 2 ^ (n.log2 + 1 - p), n.log2 + 1 - p, div_unit_lt, ?_⟩
    unfold nearest at h
    dsimp only at h
    split at h
    · exact h.symm
    · -- rounded up, `n` would be a whole unit above what it is
      have hmod := Nat.mod_lt n (Nat.two_pow_pos (n.log2 + 1 - p))
      rw [Nat.succ_mul] at h
      omega
  · intro h
    have hrest := Nat.mod_eq_zero_of_dvd (unit_dvd_of_fits hn h)
    unfold nearest
    dsimp only
    rw [if_pos (Or.inl (by rw [hrest]; exact Nat.two_pow_pos _))]
    omega

theorem nearest_of_lt (h : n < 2 ^ p) : nearest p n = n := nearest_eq_self_iff.mpr (fits_of_lt h)

end

/-! Values. -/

mutual

def mapNumbers (f : List Char → List Char) : Value → Value
  | .number literal => .number (f literal)
  | .array items => .array (mapItems f items)
  | .object members => .object (mapMembers f members)
  | .null => .null
  | .bool b => .bool b
  | .string s => .string s

def mapItems (f : List Char → List Char) : List Value → List Value
  | [] => []
  | v :: vs => mapNumbers f v :: mapItems f vs

def mapMembers (f : List Char → List Char) : List (String × Value) → List (String × Value)
  | [] => []
  | (k, v) :: ms => (k, mapNumbers f v) :: mapMembers f ms

end

mutual

/-- Every number literal of the value meets `P`. -/
def AllNumbers (P : List Char → Prop) : Value → Prop
  | .number literal => P literal
  | .array items => AllItems P items
  | .object members => AllMembers P members
  | .null | .bool _ | .string _ => True

def AllItems (P : List Char → Prop) : List Value → Prop
  | [] => True
  | v :: vs => AllNumbers P v ∧ AllItems P vs

def AllMembers (P : List Char → Prop) : List (String × Value) → Prop
  | [] => True
  | (_, v) :: ms => AllNumbers P v ∧ AllMembers P ms

end

mutual

def decideAllNumbers (P : List Char → Prop) [DecidablePred P] :
    (v : Value) → Decidable (AllNumbers P v)
  | .number literal => inferInstanceAs (Decidable (P literal))
  | .array items => decideAllItems P items
  | .object members => decideAllMembers P members
  | .null | .bool _ | .string _ => .isTrue trivial

def decideAllItems (P : List Char → Prop) [DecidablePred P] :
    (vs : List Value) → Decidable (AllItems P vs)
  | [] => .isTrue trivial
  | v :: vs => @instDecidableAnd _ _ (decideAllNumbers P v) (decideAllItems P vs)

def decideAllMembers (P : List Char → Prop) [DecidablePred P] :
    (ms : List (String × Value)) → Decidable (AllMembers P ms)
  | [] => .isTrue trivial
  | (_, v) :: ms => @instDecidableAnd _ _ (decideAllNumbers P v) (decideAllMembers P ms)

end

instance (P : List Char → Prop) [DecidablePred P] (v : Value) : Decidable (AllNumbers P v) :=
  decideAllNumbers P v

section

variable {P Q : List Char → Prop} {f : List Char → List Char}

theorem allItems_map {α : Type} {encode : α → Value} {items : List α}
    (h : ∀ x ∈ items, AllNumbers P (encode x)) : AllItems P (items.map encode) := by
  induction items with
  | nil => trivial
  | cons x items ih =>
    exact ⟨h x List.mem_cons_self, ih fun y hy => h y (List.mem_cons_of_mem _ hy)⟩

mutual

theorem mapNumbers_eq_self_iff (v : Value) (hv : AllNumbers P v)
    (h : ∀ literal, P literal → (f literal = literal ↔ Q literal)) :
    mapNumbers f v = v ↔ AllNumbers Q v := by
  match v with
  | .number literal =>
    rw [mapNumbers, AllNumbers, Value.number.injEq]
    exact h literal hv
  | .array items =>
    rw [mapNumbers, AllNumbers, Value.array.injEq]
    exact mapItems_eq_self_iff items hv h
  | .object members =>
    rw [mapNumbers, AllNumbers, Value.object.injEq]
    exact mapMembers_eq_self_iff members hv h
  | .null | .bool _ | .string _ => exact iff_of_true rfl trivial

theorem mapItems_eq_self_iff (vs : List Value) (hvs : AllItems P vs)
    (h : ∀ literal, P literal → (f literal = literal ↔ Q literal)) :
    mapItems f vs = vs ↔ AllItems Q vs := by
  match vs with
  | [] => exact iff_of_true rfl trivial
  | v :: vs =>
    rw [mapItems, AllItems, List.cons.injEq, mapNumbers_eq_self_iff v hvs.1 h,
      mapItems_eq_self_iff vs hvs.2 h]

theorem mapMembers_eq_self_iff (ms : List (String × Value)) (hms : AllMembers P ms)
    (h : ∀ literal, P literal → (f literal = literal ↔ Q literal)) :
    mapMembers f ms = ms ↔ AllMembers Q ms := by
  match ms with
  | [] => exact iff_of_true rfl trivial
  | (k, v) :: ms =>
    rw [mapMembers, AllMembers, List.cons.injEq, Prod.mk.injEq, mapNumbers_eq_self_iff v hms.1 h,
      mapMembers_eq_self_iff ms hms.2 h, and_iff_right rfl]

end

end

end LearnPg.Basis.Doubles
