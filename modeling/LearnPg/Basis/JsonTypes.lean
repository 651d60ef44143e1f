import LearnPg.Basis.Decimal
import LearnPg.Basis.Json
import Mathlib.Data.List.Basic

/-! Typed values as JSON, by the rules of Go's `encoding/json`: a type says how its values are
written and how a JSON value is read into one that is there already. -/
namespace LearnPg.Basis.JsonTypes
open Decimal Json

mutual

inductive Ty where
  | string
  | int
  | slice (elem : Ty)
  | struct (fields : Fields)
  | ptr (fields : Fields)

/-- The exported fields of a struct with what their tags say. -/
inductive Fields where
  | nil
  | cons (name : String) (omitEmpty : Bool) (type : Ty) (rest : Fields)

end

mutual

/-- A slice is nil or a list, a pointer nil or a struct. -/
def Ty.Rep : Ty → Type
  | .string => String
  | .int => Int
  | .slice t => Option (List t.Rep)
  | .struct fs => fs.Rep
  | .ptr fs => Option fs.Rep

def Fields.Rep : Fields → Type
  | .nil => Unit
  | .cons _ _ t rest => t.Rep × rest.Rep

end

mutual

def Ty.zero : (t : Ty) → t.Rep
  | .string => ""
  | .int => (0 : Int)
  | .slice t => (none : Option (List t.Rep))
  | .struct fs => fs.zero
  | .ptr fs => (none : Option fs.Rep)

def Fields.zero : (fs : Fields) → fs.Rep
  | .nil => ()
  | .cons _ _ t rest => (t.zero, rest.zero)

end

/-- What `omitempty` leaves out. -/
def Ty.IsEmpty : (t : Ty) → t.Rep → Prop
  | .string, s => @Eq String s ""
  | .int, n => @Eq Int n 0
  | .slice t, s => Option.getD (α := List t.Rep) s [] = []
  | .struct _, _ => False
  | .ptr fs, p => @Eq (Option fs.Rep) p none

instance Ty.decidableIsEmpty : (t : Ty) → (x : t.Rep) → Decidable (t.IsEmpty x)
  | .string, s => (inferInstance : DecidableEq String) s ""
  | .int, n => (inferInstance : DecidableEq Int) n 0
  | .slice t, s => inferInstanceAs (Decidable (Option.getD (α := List t.Rep) s [] = []))
  | .struct _, _ => inferInstanceAs (Decidable False)
  | .ptr _, none => isTrue rfl
  | .ptr _, some _ => isFalse nofun

def encodeInt (n : Int) : Value := .number (toString n).toList

def encodeSlice {α : Type} (encode : α → Value) : Option (List α) → Value
  | none => .null
  | some items => .array (items.map encode)

def encodePtr {α : Type} (members : α → List (String × Value)) : Option α → Value
  | none => .null
  | some r => .object (members r)

mutual

def Ty.encode : (t : Ty) → t.Rep → Value
  | .string, s => .string s
  | .int, n => encodeInt n
  | .slice t, s => encodeSlice t.encode s
  | .struct fs, r => .object (fs.members r)
  | .ptr fs, p => encodePtr fs.members p

def Fields.members : (fs : Fields) → fs.Rep → List (String × Value)
  | .nil, _ => []
  | .cons name omitEmpty t rest, (x, more) =>
    if omitEmpty ∧ t.IsEmpty x then rest.members more
    else (name, t.encode x) :: rest.members more

end

def IsInt64 (n : Int) : Prop := -2 ^ 63 ≤ n ∧ n < 2 ^ 63

instance (n : Int) : Decidable (IsInt64 n) := inferInstanceAs (Decidable (_ ∧ _))

/-- `strconv.ParseInt` of a JSON number. -/
def parseInt (literal : List Char) : Option Int :=
  let digits := if literal.head? = some '-' then literal.tail else literal
  let n : Int := Nat.ofDigitChars 10 digits 0
  let n := if literal.head? = some '-' then -n else n
  if digits ≠ [] ∧ digits.all Char.isDigit = true ∧ IsInt64 n then some n else none

/-- Names are compared without their case when no field has the name itself. Two more
characters fold to ASCII letters. -/
def fold (c : Char) : Char :=
  if c = '\u212a' then 'K' else if c = '\u017f' then 'S' else c.toUpper

def find (names : List String) (key : String) : Option Nat :=
  match names.idxOf? key with
  | some i => some i
  | none => names.findIdx? fun name => name.toList.map fold = key.toList.map fold

def Fields.names : Fields → List String
  | .nil => []
  | .cons name _ _ rest => name :: rest.names

def decodeString (old : String) : Value → Option String
  | .null => some old
  | .string s => some s
  | _ => none

def decodeInt (old : Int) : Value → Option Int
  | .null => some old
  | .number literal => parseInt literal
  | _ => none

/-- The elements are read into new ones. -/
def decodeSlice {α : Type} (decode : Value → Option α) : Value → Option (Option (List α))
  | .null => some none
  | .array items => (items.mapM decode).map some
  | _ => none

def decodeMember {α : Type} (names : List String) (assign : α → Nat → Value → Option α) (r : α)
    (m : String × Value) : Option α :=
  match find names m.1 with
  | some i => assign r i m.2
  | none => some r

/-- Members that are no fields are skipped. -/
def decodeStruct {α : Type} (names : List String) (assign : α → Nat → Value → Option α) (old : α) :
    Value → Option α
  | .null => some old
  | .object members => members.foldlM (decodeMember names assign) old
  | _ => none

def decodePtr {α : Type} (decode : α → Value → Option α) (zero : α) (old : Option α) :
    Value → Option (Option α)
  | .null => some none
  | v => (decode (old.getD zero) v).map some

mutual

def Ty.decode : (t : Ty) → t.Rep → Value → Option t.Rep
  | .string, old, v => decodeString old v
  | .int, old, v => decodeInt old v
  | .slice t, _, v => decodeSlice (t.decode t.zero) v
  | .struct fs, old, v => decodeStruct fs.names fs.assign old v
  | .ptr fs, old, v => decodePtr (decodeStruct fs.names fs.assign) fs.zero old v

/-- Reads into the field with an index. -/
def Fields.assign : (fs : Fields) → fs.Rep → Nat → Value → Option fs.Rep
  | .nil, r, _, _ => some r
  | .cons _ _ t _, (x, more), 0, v => (t.decode x v).map (·, more)
  | .cons _ _ _ rest, (x, more), i + 1, v => (rest.assign more i v).map (x, ·)

end

/-- `json.MarshalIndent`. -/
def marshal (t : Ty) (x : t.Rep) : List Char := (t.encode x).render 0

/-- `json.Unmarshal` into a new value. -/
def unmarshal (t : Ty) (text : List Char) : Option t.Rep := (parse text).bind (t.decode t.zero)

mutual

/-- No struct of the type has two fields of one name. -/
def Ty.Distinct : Ty → Prop
  | .string | .int => True
  | .slice t => t.Distinct
  | .struct fs | .ptr fs => fs.Distinct

def Fields.Distinct : Fields → Prop
  | .nil => True
  | .cons name _ t rest => name ∉ rest.names ∧ t.Distinct ∧ rest.Distinct

end

mutual

def Ty.depth : Ty → Nat
  | .string | .int => 0
  | .slice t => t.depth + 1
  | .struct fs | .ptr fs => fs.depth + 1

def Fields.depth : Fields → Nat
  | .nil => 0
  | .cons _ _ t rest => max t.depth rest.depth

end

def ItemsFit {α : Type} (fits : α → Prop) (s : Option (List α)) : Prop := ∀ x ∈ s.getD [], fits x

def PtrFits {α : Type} (fits : α → Prop) (p : Option α) : Prop := ∀ r ∈ p, fits r

mutual

/-- Its integers are in range, and what is left out is zero. -/
def Ty.Fits : (t : Ty) → t.Rep → Prop
  | .string, _ => True
  | .int, n => IsInt64 n
  | .slice t, s => ItemsFit t.Fits s
  | .struct fs, r => fs.Fits r
  | .ptr fs, p => PtrFits fs.Fits p

def Fields.Fits : (fs : Fields) → fs.Rep → Prop
  | .nil, _ => True
  | .cons _ omitEmpty t rest, (x, more) =>
    t.Fits x ∧ (omitEmpty = true → t.IsEmpty x → x = t.zero) ∧ rest.Fits more

end

section Integers

variable {n : Int} {m : Nat}

theorem parseInt_toString (h : IsInt64 n) : parseInt (toString n).toList = some n := by
  cases n with
  | ofNat m =>
    have hhead : (Nat.toDigits 10 m).head? ≠ some '-' := fun hhead =>
      absurd (isDigit_of_mem '-' (List.mem_of_head? hhead)) (by decide)
    rw [toList_ofNat]
    unfold parseInt
    simp only [if_neg hhead, Nat.ofDigitChars_ten_toDigits]
    exact if_pos ⟨Nat.toDigits_ne_nil, List.all_eq_true.mpr isDigit_of_mem, h⟩
  | negSucc m =>
    rw [toList_negSucc]
    unfold parseInt
    simp only [List.head?_cons, if_true, List.tail_cons, Nat.ofDigitChars_ten_toDigits]
    exact if_pos ⟨Nat.toDigits_ne_nil, List.all_eq_true.mpr isDigit_of_mem, h⟩

theorem isNonzero_digitChar (hpos : 0 < m) (h : m < 10) : isNonzero m.digitChar = true := by
  interval_cases m <;> rfl

theorem foldlM_toDigits {state : NumberState} (hpos : 0 < m)
    (hstate : ∀ c, isNonzero c = true → numberStep state c = some .whole) :
    (Nat.toDigits 10 m).foldlM numberStep state = some .whole := by
  induction m using Nat.strongRecOn with
  | ind m ih =>
    by_cases h : m < 10
    · rw [Nat.toDigits_of_lt_base h]
      simp [hstate _ (isNonzero_digitChar hpos h)]
    · have hlast : (m % 10).digitChar.isDigit = true := by
        apply isDigit_of_mem (n := m % 10)
        rw [Nat.toDigits_of_lt_base (Nat.mod_lt _ (by decide))]
        exact List.mem_singleton_self _
      rw [Nat.toDigits_of_base_le (by decide) (Nat.not_lt.mp h), List.foldlM_append,
        ih (m / 10) (by omega) (by omega)]
      simp [numberStep, hlast]

theorem isNumber_toString (n : Int) : isNumber (toString n).toList = true := by
  have hstart (c : Char) (hc : isNonzero c = true) : numberStep .start c = some .whole := by
    have hminus : c ≠ '-' := by
      rintro rfl
      cases hc
    have hzero : c ≠ '0' := by
      rintro rfl
      cases hc
    simp [numberStep, hc, hminus, hzero]
  have hminus (c : Char) (hc : isNonzero c = true) : numberStep .minus c = some .whole := by
    have hzero : c ≠ '0' := by
      rintro rfl
      cases hc
    simp [numberStep, hc, hzero]
  cases n with
  | ofNat m =>
    rw [toList_ofNat]
    obtain rfl | hpos := Nat.eq_zero_or_pos m
    · rfl
    · rw [isNumber, foldlM_toDigits hpos hstart]
      rfl
  | negSucc m =>
    have hfirst : numberStep .start '-' = some .minus := rfl
    rw [toList_negSucc, isNumber, List.foldlM_cons, hfirst]
    change Option.any _ (List.foldlM numberStep .minus _) = true
    rw [foldlM_toDigits (Nat.succ_pos m) hminus]
    rfl

end Integers

section

variable {vs : List Value} {n : Nat} {α : Type}

theorem itemsWithin_map {encode : α → Value} {items : List α}
    (h : ∀ x ∈ items, (encode x).Within n) : ItemsWithin n (items.map encode) := by
  induction items with
  | nil => trivial
  | cons x items ih =>
    obtain ⟨hx, hitems⟩ := List.forall_mem_cons.mp h
    exact ⟨hx, ih hitems⟩

end

mutual

theorem Ty.within_encode (t : Ty) {n : Nat} (x : t.Rep) (h : t.depth ≤ n) :
    (t.encode x).Within n := by
  match t, x with
  | .string, _ => trivial
  | .int, x => exact isNumber_toString x
  | .slice _, none => trivial
  | .slice t, some items =>
    have hdepth : t.depth + 1 ≤ n := h
    exact ⟨by omega, itemsWithin_map fun x _ => t.within_encode x (by omega)⟩
  | .struct fs, r =>
    have hdepth : fs.depth + 1 ≤ n := h
    exact ⟨by omega, fs.within_members r (by omega)⟩
  | .ptr _, none => trivial
  | .ptr fs, some r =>
    have hdepth : fs.depth + 1 ≤ n := h
    exact ⟨by omega, fs.within_members r (by omega)⟩

theorem Fields.within_members (fs : Fields) {n : Nat} (r : fs.Rep) (h : fs.depth ≤ n) :
    MembersWithin n (fs.members r) := by
  match fs, r with
  | .nil, _ => trivial
  | .cons name omitEmpty t rest, (x, more) =>
    have hdepth : t.depth ≤ n ∧ rest.depth ≤ n := Nat.max_le.mp h
    have hmore := rest.within_members more hdepth.2
    simp only [Fields.members]
    split
    · exact hmore
    · exact ⟨t.within_encode x hdepth.1, hmore⟩

end

theorem Fields.names_of_member (fs : Fields) (r : fs.Rep) {m : String × Value}
    (h : m ∈ fs.members r) : m.1 ∈ fs.names := by
  match fs, r with
  | .nil, _ => cases h
  | .cons name omitEmpty t rest, (x, more) =>
    simp only [Fields.members] at h
    split at h
    · exact List.mem_cons_of_mem _ (rest.names_of_member more h)
    · obtain rfl | h := List.mem_cons.mp h
      · exact List.mem_cons_self
      · exact List.mem_cons_of_mem _ (rest.names_of_member more h)

def Fields.pair (name : String) (omitEmpty : Bool) {t : Ty} {rest : Fields} (x : t.Rep)
    (more : rest.Rep) : (Fields.cons name omitEmpty t rest).Rep := (x, more)

section

variable {rest : Fields} {t : Ty} {name key : String} {omitEmpty : Bool} {x : t.Rep}
  {more : rest.Rep} {members : List (String × Value)}

theorem find_head (name : String) (names : List String) : find (name :: names) name = some 0 := by
  simp [find, List.idxOf?_cons]

theorem find_tail {names : List String} (hne : name ≠ key) (h : key ∈ names) :
    find (name :: names) key = (find names key).map (· + 1) := by
  obtain ⟨i, hi⟩ := Option.isSome_iff_exists.mp (List.isSome_idxOf?.mpr h)
  simp [find, List.idxOf?_cons, hne, hi]

theorem fold_of_find {names : List String} {i : Nat} (h : find names key = some i) :
    ∃ name, names[i]? = some name ∧ name.toList.map fold = key.toList.map fold := by
  unfold find at h
  split at h
  next j hj =>
    cases h
    obtain ⟨hi, hkey, -⟩ := List.findIdx?_eq_some_iff_getElem.mp hj
    exact ⟨names[i], List.getElem?_eq_getElem hi, by rw [eq_of_beq hkey]⟩
  next =>
    obtain ⟨hi, hkey, -⟩ := List.findIdx?_eq_some_iff_getElem.mp h
    exact ⟨names[i], List.getElem?_eq_getElem hi, of_decide_eq_true hkey⟩

theorem foldlM_tail (hname : name ∉ rest.names) (h : ∀ m ∈ members, m.1 ∈ rest.names) :
    members.foldlM (decodeMember (Fields.cons name omitEmpty t rest).names
        (Fields.cons name omitEmpty t rest).assign) (Fields.pair name omitEmpty x more) =
      (members.foldlM (decodeMember rest.names rest.assign) more).map
        (Fields.pair name omitEmpty x) := by
  induction members generalizing more with
  | nil => rfl
  | cons m members ih =>
    obtain ⟨hm, hmembers⟩ := List.forall_mem_cons.mp h
    have hne : name ≠ m.1 := fun heq => hname (heq ▸ hm)
    have hstep : decodeMember (Fields.cons name omitEmpty t rest).names
        (Fields.cons name omitEmpty t rest).assign (Fields.pair name omitEmpty x more) m =
          (decodeMember rest.names rest.assign more m).map (Fields.pair name omitEmpty x) := by
      unfold decodeMember
      rw [Fields.names, find_tail hne hm]
      cases find rest.names m.1 <;> rfl
    rw [List.foldlM_cons, List.foldlM_cons, hstep]
    cases decodeMember rest.names rest.assign more m with
    | none => rfl
    | some next => exact ih hmembers

end

theorem mapM_map {α β : Type} {decode : β → Option α} {encode : α → β} {items : List α}
    (h : ∀ x ∈ items, decode (encode x) = some x) :
    (items.map encode).mapM decode = some items := by
  induction items with
  | nil => rfl
  | cons x items ih =>
    obtain ⟨hx, hitems⟩ := List.forall_mem_cons.mp h
    rw [List.map_cons, List.mapM_cons, hx, ih hitems]
    rfl

mutual

/-- A value that fits is read back from what is written of it. -/
theorem Ty.decode_encode (t : Ty) (x : t.Rep) (hdistinct : t.Distinct) (h : t.Fits x) :
    t.decode t.zero (t.encode x) = some x := by
  match t, x with
  | .string, _ => rfl
  | .int, _ => exact parseInt_toString h
  | .slice _, none => rfl
  | .slice t, some items =>
    have hitems : (items.map t.encode).mapM (t.decode t.zero) = some items :=
      mapM_map fun x hx => t.decode_encode x hdistinct (h x hx)
    exact congrArg (Option.map some) hitems
  | .struct fs, r => exact fs.foldlM_members r hdistinct h
  | .ptr _, none => rfl
  | .ptr fs, some r =>
    change Option.map some (List.foldlM _ fs.zero (fs.members r)) = _
    rw [fs.foldlM_members r hdistinct (h r rfl)]
    rfl

theorem Fields.foldlM_members (fs : Fields) (r : fs.Rep) (hdistinct : fs.Distinct)
    (h : fs.Fits r) :
    (fs.members r).foldlM (decodeMember fs.names fs.assign) fs.zero = some r := by
  match fs, r with
  | .nil, _ => rfl
  | .cons name omitEmpty t rest, (x, more) =>
    obtain ⟨hname, ht, hrest⟩ := hdistinct
    obtain ⟨hx, hempty, hmore⟩ := h
    have hnames : ∀ m ∈ rest.members more, m.1 ∈ rest.names := fun m hm => rest.names_of_member more hm
    have hfold := rest.foldlM_members more hrest hmore
    change List.foldlM _ (Fields.pair name omitEmpty t.zero rest.zero) _ =
      some (Fields.pair name omitEmpty x more)
    simp only [Fields.members]
    split
    next hleft =>
      rw [foldlM_tail hname hnames, hfold, ← hempty hleft.1 hleft.2]
      rfl
    next =>
      have hfirst : decodeMember (Fields.cons name omitEmpty t rest).names
          (Fields.cons name omitEmpty t rest).assign (Fields.pair name omitEmpty t.zero rest.zero)
            (name, t.encode x) = some (Fields.pair name omitEmpty x rest.zero) := by
        unfold decodeMember
        rw [Fields.names, find_head]
        change (t.decode t.zero (t.encode x)).map _ = _
        rw [t.decode_encode x ht hx]
        rfl
      rw [List.foldlM_cons, hfirst]
      change List.foldlM _ (Fields.pair name omitEmpty x rest.zero) _ = _
      rw [foldlM_tail hname hnames, hfold]
      rfl

end

theorem unmarshal_marshal {t : Ty} {x : t.Rep} (hdepth : t.depth ≤ maxNestingDepth)
    (hdistinct : t.Distinct) (h : t.Fits x) : unmarshal t (marshal t x) = some x := by
  unfold unmarshal marshal
  rw [parse_render (t.within_encode x hdepth), Option.bind_some, t.decode_encode x hdistinct h]

def Ty.isSlice : Ty → Bool
  | .slice _ => true
  | _ => false

mutual

/-- Slices are never left out. -/
def Ty.Tidy : Ty → Prop
  | .string | .int => True
  | .slice t => t.Tidy
  | .struct fs | .ptr fs => fs.Tidy

def Fields.Tidy : Fields → Prop
  | .nil => True
  | .cons _ omitEmpty t rest => (omitEmpty && t.isSlice) = false ∧ t.Tidy ∧ rest.Tidy

end

theorem Ty.eq_zero (t : Ty) (x : t.Rep) (h : t.isSlice = false) (hempty : t.IsEmpty x) :
    x = t.zero := by
  match t, x with
  | .string, _ => exact hempty
  | .int, _ => exact hempty
  | .struct _, _ => exact hempty.elim
  | .ptr _, _ => exact hempty

theorem fits_of_parseInt {literal : List Char} {n : Int} (h : parseInt literal = some n) :
    IsInt64 n := by
  unfold parseInt at h
  obtain ⟨⟨-, -, hrange⟩, hn⟩ := Option.ite_none_right_eq_some.mp h
  rw [← Option.some.inj hn]
  exact hrange

theorem forall_of_mapM {α β : Type} {decode : β → Option α} {P : α → Prop} {vs : List β}
    {items : List α} (h : vs.mapM decode = some items) (hP : ∀ v x, decode v = some x → P x) :
    ∀ x ∈ items, P x := by
  induction vs generalizing items with
  | nil =>
    cases h
    exact List.forall_mem_nil _
  | cons v vs ih =>
    rw [List.mapM_cons] at h
    obtain ⟨x, hx, h⟩ := Option.bind_eq_some_iff.mp h
    obtain ⟨xs, hxs, h⟩ := Option.bind_eq_some_iff.mp h
    cases h
    exact List.forall_mem_cons.mpr ⟨hP v x hx, ih hxs⟩

theorem of_foldlM {α β : Type} {step : α → β → Option α} {P : α → Prop}
    (hstep : ∀ r m r', P r → step r m = some r' → P r') {members : List β} {r r' : α} (hr : P r)
    (h : members.foldlM step r = some r') : P r' := by
  induction members generalizing r with
  | nil =>
    cases h
    exact hr
  | cons m members ih =>
    obtain ⟨next, hnext, h⟩ := Option.bind_eq_some_iff.mp h
    exact ih (hstep r m next hr hnext) h

theorem of_decodeStruct {α : Type} {names : List String} {assign : α → Nat → Value → Option α}
    {P : α → Prop} (hassign : ∀ r i v r', P r → assign r i v = some r' → P r') {old new : α}
    {v : Value} (hold : P old) (h : decodeStruct names assign old v = some new) : P new := by
  cases v with
  | null =>
    cases h
    exact hold
  | object members =>
    refine of_foldlM (fun r m r' hr hm => ?_) hold h
    unfold decodeMember at hm
    split at hm
    · exact hassign r _ _ r' hr hm
    · cases hm
      exact hr
  | _ => cases h

mutual

theorem Ty.zero_fits (t : Ty) : t.Fits t.zero := by
  match t with
  | .string => trivial
  | .int => exact (by decide : IsInt64 0)
  | .slice _ => exact nofun
  | .struct fs => exact fs.zero_fits
  | .ptr _ => exact nofun

theorem Fields.zero_fits (fs : Fields) : fs.Fits fs.zero := by
  match fs with
  | .nil => trivial
  | .cons _ _ t rest => exact ⟨t.zero_fits, fun _ _ => rfl, rest.zero_fits⟩

end

mutual

/-- What is read into a value that fits makes one that fits. -/
theorem Ty.fits_of_decode (t : Ty) {old new : t.Rep} {v : Value} (ht : t.Tidy)
    (hold : t.Fits old) (h : t.decode old v = some new) : t.Fits new := by
  match t with
  | .string => trivial
  | .int =>
    cases v with
    | null =>
      cases h
      exact hold
    | number literal => exact fits_of_parseInt h
    | _ => cases h
  | .slice t =>
    cases v with
    | null =>
      cases h
      exact nofun
    | array vs =>
      obtain ⟨items, hitems, rfl⟩ := Option.map_eq_some_iff.mp h
      exact forall_of_mapM hitems fun v x hx => t.fits_of_decode ht t.zero_fits hx
    | _ => cases h
  | .struct fs =>
    exact of_decodeStruct (fun r i v r' hr hassign => fs.fits_of_assign r i v r' ht hr hassign) hold h
  | .ptr fs =>
    have hsome (h : (decodeStruct fs.names fs.assign (Option.getD (α := fs.Rep) old fs.zero) v).map
        some = some new) : (Ty.ptr fs).Fits new := by
      obtain ⟨r, hr, rfl⟩ := Option.map_eq_some_iff.mp h
      intro r' hr'
      cases hr'
      refine of_decodeStruct (fun r i v r' hr hassign => fs.fits_of_assign r i v r' ht hr hassign)
        ?_ hr
      match old with
      | none => exact fs.zero_fits
      | some r => exact hold r rfl
    cases v with
    | null =>
      cases h
      exact nofun
    | _ => exact hsome h

theorem Fields.fits_of_assign (fs : Fields) (r : fs.Rep) (i : Nat) (v : Value) (r' : fs.Rep)
    (hfs : fs.Tidy) (hr : fs.Fits r) (h : fs.assign r i v = some r') : fs.Fits r' := by
  match fs, r, i with
  | .nil, _, _ =>
    cases h
    trivial
  | .cons _ omitEmpty t rest, (x, more), 0 =>
    obtain ⟨hkind, ht, -⟩ := hfs
    obtain ⟨x', hx', rfl⟩ := Option.map_eq_some_iff.mp h
    refine ⟨t.fits_of_decode ht hr.1 hx', fun homit hempty => ?_, hr.2.2⟩
    rw [homit, Bool.true_and] at hkind
    exact t.eq_zero x' hkind hempty
  | .cons _ _ _ rest, (x, more), i + 1 =>
    obtain ⟨more', hmore, rfl⟩ := Option.map_eq_some_iff.mp h
    exact ⟨hr.1, hr.2.1, rest.fits_of_assign more i v more' hfs.2.2 hr.2.2 hmore⟩

end

theorem fits_of_unmarshal {t : Ty} {text : List Char} {x : t.Rep} (ht : t.Tidy)
    (h : unmarshal t text = some x) : t.Fits x := by
  obtain ⟨v, -, hv⟩ := Option.bind_eq_some_iff.mp h
  exact t.fits_of_decode ht t.zero_fits hv

end LearnPg.Basis.JsonTypes
