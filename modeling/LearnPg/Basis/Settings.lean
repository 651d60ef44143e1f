import LearnPg.Basis.Maps

/-! Text that lists settings as `key=value`, separated by blanks: a value ends at a blank
unless it is in single quotes, a backslash takes the meaning from the character after it,
and the last value of a key counts. No character is left over where such a text, written
without quotes and with one blank between its settings, means what was written, so that
it does exactly if no value has to be quoted. -/
namespace LearnPg.Basis.Settings

open Maps

abbrev Setting := List Char × List Char

/-- What the scanner is in, with what it has of it. -/
inductive Mode where
  | between
  | key (k : List Char)
  | afterKey (k : List Char)
  | beforeValue (k : List Char)
  | value (k v : List Char)
  | escaped (k v : List Char)
  | quoted (k v : List Char)
  | quotedEscaped (k v : List Char)

structure Scan where
  read : List Setting
  mode : Mode

section

variable (blank : Char → Bool)

def Scan.to (s : Scan) (mode : Mode) : Option Scan := some { s with mode }

def Scan.emit (s : Scan) (k v : List Char) : Option Scan := some ⟨s.read ++ [(k, v)], .between⟩

def Scan.next (s : Scan) (c : Char) : Option Scan :=
  match s.mode with
  | .between => if blank c then s.to .between else if c = '=' then s.to (.beforeValue [])
    else s.to (.key [c])
  | .key k => if c = '=' then s.to (.beforeValue k) else if blank c then s.to (.afterKey k)
    else s.to (.key (k ++ [c]))
  | .afterKey k => if c = '=' then s.to (.beforeValue k) else if blank c then s.to (.afterKey k)
    else none
  | .beforeValue k =>
    if blank c then s.to (.beforeValue k)
    else if c = '\'' then s.to (.quoted k [])
    else if c = '\\' then s.to (.escaped k []) else s.to (.value k [c])
  | .value k v => if blank c then s.emit k v else if c = '\\' then s.to (.escaped k v)
    else s.to (.value k (v ++ [c]))
  | .escaped k v => s.to (.value k (v ++ [c]))
  | .quoted k v => if c = '\'' then s.emit k v else if c = '\\' then s.to (.quotedEscaped k v)
    else s.to (.quoted k (v ++ [c]))
  | .quotedEscaped k v => s.to (.quoted k (v ++ [c]))

/-- At the end of the text. A value may be missing, but not what follows a backslash. -/
def Scan.finish (s : Scan) : Option (List Setting) :=
  match s.mode with
  | .between => some s.read
  | .beforeValue k => some (s.read ++ [(k, [])])
  | .value k v => some (s.read ++ [(k, v)])
  | _ => none

def Scan.rest (s : Scan) : List Char → Option (List Setting)
  | [] => s.finish
  | c :: text => (s.next blank c).bind (·.rest text)

def parse (text : List Char) : Option (List Setting) := Scan.rest blank ⟨[], .between⟩ text

end

def settings (read : List Setting) : Map (List Char) (List Char) :=
  read.foldl (fun m x => m.insert x.1 x.2) ∅

structure Plain (blank : Char → Bool) (v : List Char) : Prop where
  nonempty : v ≠ []
  unquoted : v.head? ≠ some '\''
  chars : ∀ c ∈ v, blank c = false ∧ c ≠ '\\'

structure PlainKey (blank : Char → Bool) (k : List Char) : Prop where
  nonempty : k ≠ []
  chars : ∀ c ∈ k, blank c = false ∧ c ≠ '='

theorem plain_iff {blank : Char → Bool} {v : List Char} : Plain blank v ↔
    v ≠ [] ∧ v.head? ≠ some '\'' ∧ (v.all fun c => !blank c && c != '\\') = true := by
  rw [List.all_eq_true]
  constructor
  · intro h
    exact ⟨h.nonempty, h.unquoted, fun c hc => by simp [h.chars c hc]⟩
  · rintro ⟨hne, hquote, hchars⟩
    exact ⟨hne, hquote, fun c hc => by simpa using hchars c hc⟩

theorem plainKey_iff {blank : Char → Bool} {k : List Char} : PlainKey blank k ↔
    k ≠ [] ∧ (k.all fun c => !blank c && c != '=') = true := by
  rw [List.all_eq_true]
  constructor
  · intro h
    exact ⟨h.nonempty, fun c hc => by simp [h.chars c hc]⟩
  · rintro ⟨hne, hchars⟩
    exact ⟨hne, fun c hc => by simpa using hchars c hc⟩

instance (blank : Char → Bool) (v : List Char) : Decidable (Plain blank v) :=
  decidable_of_iff _ plain_iff.symm

instance (blank : Char → Bool) (k : List Char) : Decidable (PlainKey blank k) :=
  decidable_of_iff _ plainKey_iff.symm

def render (separator : Char) (xs : List Setting) (last : Setting) : List Char :=
  (xs.flatMap fun x => x.1 ++ '=' :: x.2 ++ [separator]) ++ last.1 ++ '=' :: last.2

/-! How many characters it takes to write settings. -/

def size : List Setting → Nat
  | [] => 0
  | x :: xs => x.1.length + x.2.length + 2 + size xs

def Mode.size : Mode → Nat
  | .between => 0
  | .key k => k.length
  | .afterKey k | .beforeValue k => k.length + 1
  | .value k v => k.length + v.length + 1
  | .escaped k v | .quoted k v => k.length + v.length + 2
  | .quotedEscaped k v => k.length + v.length + 3

def Scan.size (s : Scan) : Nat := Settings.size s.read + s.mode.size

section

variable {blank : Char → Bool} {s t : Scan} {c : Char} {text : List Char}
  {xs ys read : List Setting}

@[simp] theorem size_append : size (xs ++ ys) = size xs + size ys := by
  induction xs with
  | nil => simp [size]
  | cons x xs ih => simp [size, ih, Nat.add_assoc]

theorem to_size {mode : Mode} (h : s.to mode = some t) :
    t.size + s.mode.size = s.size + mode.size := by
  cases h
  simp only [Scan.size]
  omega

theorem emit_size {k v : List Char} (h : s.emit k v = some t) :
    t.size + s.mode.size = s.size + (k.length + v.length + 2) := by
  cases h
  simp only [Scan.size, size_append, size, Mode.size]
  omega

theorem next_size (h : s.next blank c = some t) : t.size ≤ s.size + 1 := by
  unfold Scan.next at h
  split at h
  all_goals
    next hmode =>
    repeat' split at h
    all_goals first
      | have hsize := to_size h
        simp only [hmode, Mode.size, List.length_append, List.length_cons, List.length_nil] at hsize
        omega
      | have hsize := emit_size h
        simp only [hmode, Mode.size] at hsize
        omega
      | cases h

theorem finish_size (h : s.finish = some read) : size read ≤ s.size + 1 := by
  unfold Scan.finish at h
  split at h
  all_goals
    next hmode =>
    cases h
    all_goals
      simp only [Scan.size, hmode, Mode.size, size_append, size, List.length_nil]
      omega

theorem rest_size (h : s.rest blank text = some read) : size read ≤ s.size + text.length + 1 := by
  induction text generalizing s with
  | nil => exact finish_size h
  | cons c text ih =>
    obtain ⟨t, hnext, hrest⟩ := Option.bind_eq_some_iff.mp h
    have hsize := next_size hnext
    have hread := ih hrest
    rw [List.length_cons]
    omega

structure Tight (blank : Char → Bool) (s : Scan) (text : List Char) (read : List Setting) :
    Prop where
  rest : s.rest blank text = some read
  size : s.size + text.length + 1 ≤ size read

theorem Tight.next (h : Tight blank s (c :: text) read) :
    ∃ t, s.next blank c = some t ∧ t.size = s.size + 1 ∧ Tight blank t text read := by
  obtain ⟨t, hnext, hrest⟩ := Option.bind_eq_some_iff.mp h.rest
  have hmore := next_size hnext
  have hread := rest_size hrest
  have hsize := h.size
  rw [List.length_cons] at hsize
  exact ⟨t, hnext, by omega, hrest, by omega⟩

theorem Tight.to {mode : Mode} (h : Tight blank s (c :: text) read)
    (hnext : s.next blank c = s.to mode) :
    mode.size = s.mode.size + 1 ∧ Tight blank { s with mode } text read := by
  obtain ⟨t, ht, hsize, htight⟩ := h.next
  rw [hnext] at ht
  have hto := to_size ht
  cases ht
  exact ⟨by omega, htight⟩

theorem Tight.emit {k v : List Char} (h : Tight blank s (c :: text) read)
    (hnext : s.next blank c = s.emit k v) :
    k.length + v.length + 2 = s.mode.size + 1 ∧
      Tight blank ⟨s.read ++ [(k, v)], .between⟩ text read := by
  obtain ⟨t, ht, hsize, htight⟩ := h.next
  rw [hnext] at ht
  have hemit := emit_size ht
  cases ht
  exact ⟨by omega, htight⟩

theorem not_tight_escaped {done : List Setting} {k v : List Char} :
    ¬ Tight blank ⟨done, .escaped k v⟩ text read := by
  intro h
  cases text with
  | nil => cases h.rest
  | cons c text =>
    have hto := (h.to rfl).1
    simp only [Mode.size, List.length_append, List.length_cons, List.length_nil] at hto
    omega

theorem not_tight_quotedEscaped {done : List Setting} {k v : List Char} :
    ¬ Tight blank ⟨done, .quotedEscaped k v⟩ text read := by
  intro h
  cases text with
  | nil => cases h.rest
  | cons c text =>
    have hto := (h.to rfl).1
    simp only [Mode.size, List.length_append, List.length_cons, List.length_nil] at hto
    omega

theorem not_tight_quoted {done : List Setting} {k v : List Char} :
    ¬ Tight blank ⟨done, .quoted k v⟩ text read := by
  intro h
  induction text generalizing v with
  | nil => cases h.rest
  | cons c text ih =>
    by_cases hquote : c = '\''
    · have hemit := (h.emit (if_pos hquote)).1
      simp only [Mode.size] at hemit
      omega
    · by_cases hescape : c = '\\'
      · have hnext : Scan.next blank ⟨done, .quoted k v⟩ c =
            Scan.to ⟨done, .quoted k v⟩ (.quotedEscaped k v) := by
          simp only [Scan.next, if_neg hquote, if_pos hescape]
        exact not_tight_quotedEscaped (h.to hnext).2
      · have hnext : Scan.next blank ⟨done, .quoted k v⟩ c =
            Scan.to ⟨done, .quoted k v⟩ (.quoted k (v ++ [c])) := by
          simp only [Scan.next, if_neg hquote, if_neg hescape]
        exact ih (h.to hnext).2

theorem next_read (h : s.next blank c = some t) : s.read <+: t.read := by
  unfold Scan.next Scan.to Scan.emit at h
  repeat' split at h
  all_goals first
    | exact List.prefix_rfl
    | cases h
  all_goals first
    | exact List.prefix_rfl
    | exact List.prefix_append _ _

theorem finish_read (h : s.finish = some read) : s.read <+: read := by
  unfold Scan.finish at h
  split at h
  all_goals
    cases h
    all_goals first
      | exact List.prefix_rfl
      | exact List.prefix_append _ _

theorem rest_read (h : s.rest blank text = some read) : s.read <+: read := by
  induction text generalizing s with
  | nil => exact finish_read h
  | cons c text ih =>
    obtain ⟨t, hnext, hrest⟩ := Option.bind_eq_some_iff.mp h
    exact (next_read hnext).trans (ih hrest)

section

variable {done : List Setting} {k u v w : List Char} {separator : Char}

theorem Tight.value (h : Tight blank ⟨done, .value k u⟩ (w ++ separator :: text) read)
    (hseparator : blank separator = true) (hkey : ∀ v, (k, v) ∈ read → v = u ++ w) :
    (∀ c ∈ w, blank c = false ∧ c ≠ '\\') ∧
      Tight blank ⟨done ++ [(k, u ++ w)], .between⟩ text read := by
  induction w generalizing u with
  | nil =>
    have hemit := (h.emit (if_pos hseparator)).2
    rw [List.append_nil]
    exact ⟨by simp, hemit⟩
  | cons c w ih =>
    by_cases hblank : blank c = true
    · have hread : (k, u) ∈ read :=
        (rest_read (h.emit (if_pos hblank)).2.rest).subset (by simp)
      have hsame := hkey u hread
      simp at hsame
    · by_cases hescape : c = '\\'
      · have hnext : Scan.next blank ⟨done, .value k u⟩ c =
            Scan.to ⟨done, .value k u⟩ (.escaped k u) := by
          simp only [Scan.next, if_neg hblank, if_pos hescape]
        exact absurd (h.to hnext).2 not_tight_escaped
      · have hnext : Scan.next blank ⟨done, .value k u⟩ c =
            Scan.to ⟨done, .value k u⟩ (.value k (u ++ [c])) := by
          simp only [Scan.next, if_neg hblank, if_neg hescape]
        obtain ⟨hchars, hrest⟩ := ih (h.to hnext).2 (by simpa using hkey)
        rw [List.append_assoc] at hrest
        refine ⟨List.forall_mem_cons.mpr ⟨⟨by simpa using hblank, hescape⟩, hchars⟩, hrest⟩

theorem Tight.plain (h : Tight blank ⟨done, .beforeValue k⟩ (v ++ separator :: text) read)
    (hseparator : blank separator = true) (hkey : ∀ w, (k, w) ∈ read → w = v) :
    Plain blank v ∧ Tight blank ⟨done ++ [(k, v)], .between⟩ text read := by
  have hblank {c : Char} {text : List Char}
      (h : Tight blank ⟨done, .beforeValue k⟩ (c :: text) read) : blank c ≠ true := by
    intro hc
    have hto := (h.to (if_pos hc)).1
    simp only [Mode.size] at hto
    omega
  cases v with
  | nil => exact absurd hseparator (hblank h)
  | cons c v =>
    have hc := hblank h
    by_cases hquote : c = '\''
    · have hnext : Scan.next blank ⟨done, .beforeValue k⟩ c =
          Scan.to ⟨done, .beforeValue k⟩ (.quoted k []) := by
        simp only [Scan.next, if_neg hc, if_pos hquote]
      exact absurd (h.to hnext).2 not_tight_quoted
    · by_cases hescape : c = '\\'
      · have hnext : Scan.next blank ⟨done, .beforeValue k⟩ c =
            Scan.to ⟨done, .beforeValue k⟩ (.escaped k []) := by
          simp only [Scan.next, if_neg hc, if_neg hquote, if_pos hescape]
        exact absurd (h.to hnext).2 not_tight_escaped
      · have hnext : Scan.next blank ⟨done, .beforeValue k⟩ c =
            Scan.to ⟨done, .beforeValue k⟩ (.value k [c]) := by
          simp only [Scan.next, if_neg hc, if_neg hquote, if_neg hescape]
        obtain ⟨hchars, hrest⟩ := (h.to hnext).2.value hseparator hkey
        refine ⟨⟨by simp, by simpa using hquote, ?_⟩, hrest⟩
        exact List.forall_mem_cons.mpr ⟨⟨by simpa using hc, hescape⟩, hchars⟩

theorem rest_in_key (hkey : ∀ c ∈ w, blank c = false ∧ c ≠ '=') :
    Scan.rest blank ⟨done, .key k⟩ (w ++ '=' :: text) =
      Scan.rest blank ⟨done, .beforeValue (k ++ w)⟩ text := by
  induction w generalizing k with
  | nil => simp [Scan.rest, Scan.next, Scan.to]
  | cons c w ih =>
    obtain ⟨hc, hw⟩ := List.forall_mem_cons.mp hkey
    simp [Scan.rest, Scan.next, Scan.to, hc, ih hw]

theorem rest_key (hk : PlainKey blank k) :
    Scan.rest blank ⟨done, .between⟩ (k ++ '=' :: text) =
      Scan.rest blank ⟨done, .beforeValue k⟩ text := by
  cases k with
  | nil => exact absurd rfl hk.nonempty
  | cons c k =>
    obtain ⟨hc, hw⟩ := List.forall_mem_cons.mp hk.chars
    simp [Scan.rest, Scan.next, Scan.to, hc, rest_in_key hw]

theorem Tight.key (h : Tight blank ⟨done, .between⟩ (k ++ '=' :: text) read)
    (hk : PlainKey blank k) : Tight blank ⟨done, .beforeValue k⟩ text read := by
  refine ⟨rest_key hk ▸ h.rest, ?_⟩
  have hsize := h.size
  simp only [Scan.size, Mode.size, List.length_append, List.length_cons] at hsize ⊢
  omega

theorem rest_in_value (hw : ∀ c ∈ w, blank c = false ∧ c ≠ '\\') :
    Scan.rest blank ⟨done, .value k u⟩ (w ++ text) =
      Scan.rest blank ⟨done, .value k (u ++ w)⟩ text := by
  induction w generalizing u with
  | nil => simp
  | cons c w ih =>
    obtain ⟨hc, hw⟩ := List.forall_mem_cons.mp hw
    simp [Scan.rest, Scan.next, Scan.to, hc, ih hw]

theorem rest_value (hv : Plain blank v) :
    Scan.rest blank ⟨done, .beforeValue k⟩ (v ++ text) =
      Scan.rest blank ⟨done, .value k v⟩ text := by
  cases v with
  | nil => exact absurd rfl hv.nonempty
  | cons c v =>
    obtain ⟨hc, hw⟩ := List.forall_mem_cons.mp hv.chars
    have hquote : c ≠ '\'' := by simpa using hv.unquoted
    simp [Scan.rest, Scan.next, Scan.to, hc, hquote, rest_in_value hw]

/-! Texts of settings. -/

theorem render_cons (x : Setting) (xs : List Setting) (last : Setting) :
    render separator (x :: xs) last =
      x.1 ++ '=' :: (x.2 ++ separator :: render separator xs last) := by
  simp [render]

theorem length_render (xs : List Setting) (last : Setting) :
    (render separator xs last).length + 1 = size (xs ++ [last]) := by
  induction xs with
  | nil =>
    simp [render, size]
    omega
  | cons x xs ih =>
    rw [render_cons, List.cons_append, size, ← ih]
    simp only [List.length_append, List.length_cons]
    omega

theorem rest_render {last : Setting} (hseparator : blank separator = true)
    (hkeys : ∀ x ∈ xs ++ [last], PlainKey blank x.1) (hlast : Plain blank last.2)
    (hxs : ∀ x ∈ xs, Plain blank x.2) :
    Scan.rest blank ⟨done, .between⟩ (render separator xs last) = some (done ++ xs ++ [last]) := by
  induction xs generalizing done with
  | nil =>
    have hrest : Scan.rest blank ⟨done, .between⟩ (last.1 ++ '=' :: (last.2 ++ [])) =
        some (done ++ [last]) := by
      rw [rest_key (hkeys last (by simp)), rest_value hlast]
      rfl
    simpa [render] using hrest
  | cons x xs ih =>
    obtain ⟨hx, hxs⟩ := List.forall_mem_cons.mp hxs
    obtain ⟨hk, hkeys⟩ := List.forall_mem_cons.mp hkeys
    rw [render_cons, rest_key hk, rest_value hx]
    have hemit : Scan.next blank ⟨done, .value x.1 x.2⟩ separator =
        some ⟨done ++ [x], .between⟩ := if_pos hseparator
    rw [Scan.rest, hemit, Option.bind_some, ih hkeys hxs]
    simp

theorem Tight.render {last : Setting}
    (h : Tight blank ⟨done, .between⟩ (render separator xs last) read)
    (hseparator : blank separator = true) (hkeys : ∀ x ∈ xs, PlainKey blank x.1)
    (hvalues : ∀ x ∈ xs, ∀ w, (x.1, w) ∈ read → w = x.2) : ∀ x ∈ xs, Plain blank x.2 := by
  induction xs generalizing done with
  | nil => exact nofun
  | cons x xs ih =>
    obtain ⟨hk, hkeys⟩ := List.forall_mem_cons.mp hkeys
    obtain ⟨hx, hvalues⟩ := List.forall_mem_cons.mp hvalues
    rw [render_cons] at h
    obtain ⟨hplain, hrest⟩ := (h.key hk).plain hseparator hx
    exact List.forall_mem_cons.mpr ⟨hplain, ih hrest hkeys hvalues⟩

end

theorem size_erase {x : Setting} (h : x ∈ read) :
    size read = x.1.length + x.2.length + 2 + size (read.erase x) := by
  induction read with
  | nil => cases h
  | cons y read ih =>
    by_cases hxy : y = x
    · subst hxy
      simp [size]
    · have hx : x ∈ read := (List.mem_cons.mp h).resolve_left (Ne.symm hxy)
      rw [List.erase_cons_tail (by simpa using hxy), size, size, ih hx]
      omega

theorem size_le (hnodup : xs.Nodup) (h : ∀ x ∈ xs, x ∈ read) : size xs ≤ size read := by
  induction xs generalizing read with
  | nil => exact Nat.zero_le _
  | cons x xs ih =>
    obtain ⟨hx, hxs⟩ := List.nodup_cons.mp hnodup
    obtain ⟨hmem, hrest⟩ := List.forall_mem_cons.mp h
    rw [size, size_erase hmem]
    have herase : ∀ y ∈ xs, y ∈ read.erase x := by
      intro y hy
      have hyx : y ≠ x := by
        rintro rfl
        exact hx hy
      exact (List.mem_erase_of_ne hyx).mpr (hrest y hy)
    have hle := ih hxs herase
    omega

theorem mem_of_size_le (hnodup : xs.Nodup) (h : ∀ x ∈ xs, x ∈ read) (hsize : size read ≤ size xs)
    {x : Setting} (hx : x ∈ read) : x ∈ xs := by
  by_contra hout
  have hle := size_le (List.nodup_cons.mpr ⟨hout, hnodup⟩) (List.forall_mem_cons.mpr ⟨hx, h⟩)
  rw [size] at hle
  omega

theorem lookup_foldl (m : Map (List Char) (List Char)) (read : List Setting) (k v : List Char) :
    (read.foldl (fun m x => m.insert x.1 x.2) m).lookup k = some v →
      (k, v) ∈ read ∨ m.lookup k = some v := by
  induction read generalizing m with
  | nil => exact .inr
  | cons x read ih =>
    intro h
    rcases ih _ h with hread | hlookup
    · exact .inl (List.mem_cons_of_mem x hread)
    · by_cases hk : k = x.1
      · subst hk
        rw [Finmap.lookup_insert, Option.some.injEq] at hlookup
        subst hlookup
        exact .inl List.mem_cons_self
      · rw [Finmap.lookup_insert_of_ne _ hk] at hlookup
        exact .inr hlookup

theorem mem_of_lookup {k v : List Char} (h : (settings read).lookup k = some v) :
    (k, v) ∈ read := by
  rcases lookup_foldl ∅ read k v h with h | h
  · exact h
  · simp at h

theorem lookup_foldl_other {m : Map (List Char) (List Char)} {k : List Char}
    (h : k ∉ read.map Prod.fst) :
    (read.foldl (fun m x => m.insert x.1 x.2) m).lookup k = m.lookup k := by
  induction read generalizing m with
  | nil => rfl
  | cons x read ih =>
    rw [List.map_cons, List.mem_cons, not_or] at h
    rw [List.foldl_cons, ih h.2, Finmap.lookup_insert_of_ne _ h.1]

theorem lookup_of_mem (hnodup : (xs.map Prod.fst).Nodup) {x : Setting} (hx : x ∈ xs) :
    (settings xs).lookup x.1 = some x.2 := by
  unfold settings
  generalize (∅ : Map (List Char) (List Char)) = m
  induction xs generalizing m with
  | nil => cases hx
  | cons y xs ih =>
    rw [List.map_cons, List.nodup_cons] at hnodup
    rw [List.foldl_cons]
    rcases List.mem_cons.mp hx with rfl | hx
    · rw [lookup_foldl_other hnodup.1, Finmap.lookup_insert]
    · exact ih hnodup.2 hx _

/-- Settings with plain and distinct keys, of which the last has a plain value, are read
from their text as they were written exactly if all values are plain. -/
theorem parse_render_iff {separator : Char} {last : Setting} (hseparator : blank separator = true)
    (hkeys : ∀ x ∈ xs ++ [last], PlainKey blank x.1) (hlast : Plain blank last.2)
    (hnodup : ((xs ++ [last]).map Prod.fst).Nodup) :
    (parse blank (render separator xs last)).map settings = some (settings (xs ++ [last])) ↔
      ∀ x ∈ xs, Plain blank x.2 := by
  constructor
  · intro h
    obtain ⟨read, hread, hsame⟩ := Option.map_eq_some_iff.mp h
    have hall : ∀ x ∈ xs ++ [last], x ∈ read := by
      intro x hx
      apply mem_of_lookup
      rw [hsame]
      exact lookup_of_mem hnodup hx
    have hdistinct : (xs ++ [last]).Nodup := .of_map _ hnodup
    have hlength : (render separator xs last).length + 1 = size (xs ++ [last]) :=
      length_render xs last
    have hmost := rest_size hread
    have hleast := size_le hdistinct hall
    have hempty : Scan.size ⟨[], .between⟩ = 0 := rfl
    rw [hempty] at hmost
    have htight : Tight blank ⟨[], .between⟩ (render separator xs last) read := by
      refine ⟨hread, ?_⟩
      rw [hempty]
      omega
    refine htight.render hseparator (fun x hx => hkeys x (List.mem_append_left _ hx)) ?_
    intro x hx w hw
    have hmem := mem_of_size_le hdistinct hall (by omega) hw
    have hvalue := lookup_of_mem hnodup (List.mem_append_left _ hx)
    rw [lookup_of_mem hnodup hmem, Option.some.injEq] at hvalue
    exact hvalue
  · intro h
    unfold parse
    rw [rest_render hseparator hkeys hlast h]
    rfl

end

end LearnPg.Basis.Settings
