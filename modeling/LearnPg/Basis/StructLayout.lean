/-! How a C compiler lays out a value in memory: the members of a struct in order,
each at the next multiple of its alignment, and a union in the room its largest
alternative needs. What no member covers is padding and may hold anything. -/
namespace LearnPg.Basis.StructLayout

structure Shape where
  size : Nat
  align : Nat
deriving DecidableEq

def gap (offset align : Nat) : Nat := (align - offset % align) % align

def endFrom (offset : Nat) : List Shape → Nat
  | [] => offset
  | s :: ss => endFrom (offset + gap offset s.align + s.size) ss

def offsetFrom (offset : Nat) : List Shape → Nat → Nat
  | [], _ => offset
  | s :: _, 0 => offset + gap offset s.align
  | s :: ss, i + 1 => offsetFrom (offset + gap offset s.align + s.size) ss i

def maxAlign (shapes : List Shape) : Nat := (shapes.map Shape.align).foldr max 1

def maxSize (shapes : List Shape) : Nat := (shapes.map Shape.size).foldr max 0

def Shape.struct (members : List Shape) : Shape where
  size := endFrom 0 members + gap (endFrom 0 members) (maxAlign members)
  align := maxAlign members

def Shape.union (alternatives : List Shape) : Shape where
  size := maxSize alternatives + gap (maxSize alternatives) (maxAlign alternatives)
  align := maxAlign alternatives

section
variable {β : Type}

structure Stored (β : Type) where
  shape : Shape
  bytes : List β
  length_bytes : bytes.length = shape.size

attribute [simp] Stored.length_bytes

/-- Padding: `pad` tells what lies at each offset. -/
def padding (pad : Nat → β) (offset count : Nat) : List β :=
  (List.range count).map fun i => pad (offset + i)

@[simp] theorem padding_length (pad : Nat → β) (offset count : Nat) :
    (padding pad offset count).length = count := by
  simp [padding]

def layoutFrom (pad : Nat → β) (offset : Nat) : List (Stored β) → List β
  | [] => []
  | m :: ms =>
    padding pad offset (gap offset m.shape.align) ++ m.bytes ++
      layoutFrom pad (offset + gap offset m.shape.align + m.shape.size) ms

theorem layoutFrom_length (pad : Nat → β) (offset : Nat) (members : List (Stored β)) :
    offset + (layoutFrom pad offset members).length =
      endFrom offset (members.map Stored.shape) := by
  induction members generalizing offset with
  | nil => rfl
  | cons m ms ih =>
    simp only [layoutFrom, List.map_cons, endFrom, List.length_append, padding_length,
      Stored.length_bytes, ← ih]
    omega

/-- A struct is padded to a multiple of its own alignment. -/
def Stored.struct (pad : Nat → β) (members : List (Stored β)) : Stored β where
  shape := Shape.struct (members.map Stored.shape)
  bytes := layoutFrom pad 0 members ++ padding pad (layoutFrom pad 0 members).length
    (gap (endFrom 0 (members.map Stored.shape)) (maxAlign (members.map Stored.shape)))
  length_bytes := by
    have h := layoutFrom_length pad 0 members
    rw [Nat.zero_add] at h
    simp only [List.length_append, padding_length, h, Shape.struct]

theorem Stored.shape_struct (pad : Nat → β) (members : List (Stored β)) :
    (Stored.struct pad members).shape = Shape.struct (members.map Stored.shape) := rfl

theorem size_le_maxSize {shapes : List Shape} {s : Shape} (h : s ∈ shapes) :
    s.size ≤ maxSize shapes := by
  induction shapes with
  | nil => cases h
  | cons t ts ih =>
    simp only [maxSize, List.map_cons, List.foldr_cons] at ih ⊢
    rcases List.mem_cons.mp h with rfl | h
    · exact Nat.le_max_left _ _
    · exact Nat.le_trans (ih h) (Nat.le_max_right _ _)

def Stored.union (pad : Nat → β) (alternatives : List Shape) (m : Stored β)
    (h : m.shape ∈ alternatives) : Stored β where
  shape := Shape.union alternatives
  bytes := m.bytes ++ padding pad m.shape.size ((Shape.union alternatives).size - m.shape.size)
  length_bytes := by
    have hle : m.shape.size ≤ (Shape.union alternatives).size :=
      Nat.le_trans (size_le_maxSize h) (Nat.le_add_right _ _)
    simp only [List.length_append, padding_length, Stored.length_bytes]
    omega

/-! Where to read. -/

def HasAt (raw : List β) (offset : Nat) (bytes : List β) : Prop :=
  (raw.drop offset).take bytes.length = bytes

theorem HasAt.le {raw bytes : List β} {offset : Nat} (h : HasAt raw offset bytes)
    (hne : bytes ≠ []) : offset + bytes.length ≤ raw.length := by
  have hlen := congrArg List.length h
  have hpos := List.length_pos_iff.mpr hne
  simp only [List.length_take, List.length_drop] at hlen
  omega

theorem hasAt_append (left bytes right : List β) :
    HasAt (left ++ (bytes ++ right)) left.length bytes := by
  simp [HasAt]

theorem HasAt.trans {raw mid bytes : List β} {i j : Nat} (h : HasAt raw i mid)
    (h' : HasAt mid j bytes) : HasAt raw (i + j) bytes := by
  cases bytes with
  | nil => rfl
  | cons b bs =>
    have hle := h'.le (List.cons_ne_nil b bs)
    unfold HasAt at *
    rw [← h, List.drop_take, List.take_take, List.drop_drop] at h'
    rwa [Nat.min_eq_left (by omega)] at h'

theorem HasAt.append {raw bytes : List β} {offset : Nat} (h : HasAt raw offset bytes)
    (right : List β) : HasAt (raw ++ right) offset bytes := by
  have hself : HasAt (raw ++ right) 0 raw := hasAt_append [] raw right
  simpa using hself.trans h

theorem HasAt.left {raw bytes right : List β} {offset : Nat}
    (h : HasAt raw offset (bytes ++ right)) : HasAt raw offset bytes :=
  h.trans (hasAt_append [] bytes right)

theorem HasAt.right {raw left bytes : List β} {offset : Nat}
    (h : HasAt raw offset (left ++ bytes)) : HasAt raw (offset + left.length) bytes := by
  have hend := hasAt_append left bytes []
  rw [List.append_nil] at hend
  exact h.trans hend

theorem hasAt_layoutFrom (pad : Nat → β) (offset : Nat) (members : List (Stored β)) (i : Nat)
    (m : Stored β) (h : members[i]? = some m) :
    HasAt (layoutFrom pad offset members)
      (offsetFrom offset (members.map Stored.shape) i - offset) m.bytes ∧
      offset ≤ offsetFrom offset (members.map Stored.shape) i := by
  induction members generalizing offset i with
  | nil => cases h
  | cons n ns ih =>
    rw [layoutFrom, List.map_cons]
    cases i with
    | zero =>
      cases h
      refine ⟨?_, Nat.le_add_right _ _⟩
      have hat := hasAt_append (padding pad offset (gap offset m.shape.align)) m.bytes
        (layoutFrom pad (offset + gap offset m.shape.align + m.shape.size) ns)
      rw [padding_length, ← List.append_assoc] at hat
      rwa [offsetFrom, Nat.add_sub_cancel_left]
    | succ i =>
      rw [List.getElem?_cons_succ] at h
      obtain ⟨hat, hle⟩ := ih (offset + gap offset n.shape.align + n.shape.size) i h
      rw [offsetFrom]
      refine ⟨?_, by omega⟩
      have hrest := hasAt_append (padding pad offset (gap offset n.shape.align) ++ n.bytes)
        (layoutFrom pad (offset + gap offset n.shape.align + n.shape.size) ns) []
      rw [List.append_nil, List.length_append, padding_length, n.length_bytes] at hrest
      have hboth := hrest.trans hat
      rwa [show ∀ k, offset + gap offset n.shape.align + n.shape.size ≤ k →
        gap offset n.shape.align + n.shape.size +
          (k - (offset + gap offset n.shape.align + n.shape.size)) = k - offset by omega] at hboth
      exact hle

theorem hasAt_struct (pad : Nat → β) (members : List (Stored β)) (i : Nat) (m : Stored β)
    (h : members[i]? = some m) :
    HasAt (Stored.struct pad members).bytes (offsetFrom 0 (members.map Stored.shape) i)
      m.bytes := by
  obtain ⟨hat, -⟩ := hasAt_layoutFrom pad 0 members i m h
  exact hat.append _

theorem hasAt_union (pad : Nat → β) (alternatives : List Shape) (m : Stored β)
    (h : m.shape ∈ alternatives) : HasAt (Stored.union pad alternatives m h).bytes 0 m.bytes :=
  hasAt_append [] m.bytes _

end

end LearnPg.Basis.StructLayout
