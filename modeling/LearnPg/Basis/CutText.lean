import LearnPg.Basis.CompactJson
import LearnPg.Basis.Utf8

/-! Texts that are cut at some byte: their characters before the cut, and that a JSON text that
ends with its object is read whole or not at all. -/
namespace LearnPg.Basis.CutText

open Json Utf8

section Bytes

variable {bytes : List UInt8} {c : Char} {cs : List Char}

theorem head_of_ascii (h : c.toNat < 0x80) : String.utf8EncodeChar c = [UInt8.ofNat c.toNat] := by
  have hle : c.val.toNat ≤ 0x7f := Nat.le_of_lt_succ h
  rw [String.utf8EncodeChar, if_pos hle]
  rfl

theorem bytes_of_long (h : 1 < c.utf8Size) : ∀ b ∈ String.utf8EncodeChar c, 0x80 ≤ b := by
  have hlong : ¬ c.val.toNat ≤ 0x7f := by
    intro hle
    have hone := String.length_utf8EncodeChar c
    rw [head_of_ascii (Nat.lt_succ_of_le hle)] at hone
    simp at hone
    omega
  have hbyte {n : Nat} (hlow : 0x80 ≤ n) (hhigh : n < 0x100) : 0x80 ≤ UInt8.ofNat n := by
    rw [UInt8.le_iff_toNat_le, UInt8.toNat_ofNat']
    simp only [UInt8.reduceToNat]
    omega
  intro b hb
  simp only [String.utf8EncodeChar, if_neg hlong] at hb
  split at hb
  · simp only [List.mem_cons, List.not_mem_nil, or_false] at hb
    rcases hb with rfl | rfl <;> exact hbyte (by omega) (by omega)
  · split at hb
    · simp only [List.mem_cons, List.not_mem_nil, or_false] at hb
      rcases hb with rfl | rfl | rfl <;> exact hbyte (by omega) (by omega)
    · simp only [List.mem_cons, List.not_mem_nil, or_false] at hb
      rcases hb with rfl | rfl | rfl | rfl <;> exact hbyte (by omega) (by omega)

theorem decodeRunes_foreign (h : ∀ b ∈ bytes, 0x80 ≤ b) :
    ∀ c ∈ decodeRunes bytes, 0x80 ≤ c.toNat := by
  induction bytes using decodeRunes.induct with
  | case1 =>
    rw [decodeRunes]
    exact List.forall_mem_nil _
  | case2 b rest c hread ih =>
    rw [decodeRunes, hread]
    refine List.forall_mem_cons.mpr ⟨?_, ih fun b hb => h b ?_⟩
    · by_contra hlow
      obtain ⟨more, hmore⟩ := ByteArray.exists_of_utf8DecodeChar?_eq_some hread
      have hbytes := congrArg (·.data.toList) hmore
      simp only [List.data_toByteArray, ByteArray.toList_data_append,
        head_of_ascii (Nat.not_le.mp hlow), List.singleton_append] at hbytes
      have hb := h b List.mem_cons_self
      rw [(List.cons.inj hbytes).1, UInt8.le_iff_toNat_le, UInt8.toNat_ofNat'] at hb
      simp only [UInt8.reduceToNat] at hb
      omega
    · exact List.mem_cons_of_mem _ (List.drop_subset _ _ hb)
  | case3 b rest hread ih =>
    rw [decodeRunes, hread]
    exact List.forall_mem_cons.mpr ⟨by decide, ih (List.forall_mem_cons.mp h).2⟩

/-- A text that is cut: its characters before the cut, and behind them at most some that are none
of ASCII. -/
theorem decodeRunes_take (cs : List Char) (n : Nat) :
    ∃ front back foreign, cs = front ++ back ∧
      decodeRunes ((encodeRunes cs).take n) = front ++ foreign ∧
      (∀ c ∈ foreign, 0x80 ≤ c.toNat) ∧ (n < (encodeRunes cs).length → back ≠ []) := by
  induction cs generalizing n with
  | nil => exact ⟨[], [], [], rfl, by simp [encodeRunes, decodeRunes], List.forall_mem_nil _,
      fun h => absurd h (Nat.not_lt_zero n)⟩
  | cons c cs ih =>
    have hbytes : encodeRunes (c :: cs) = String.utf8EncodeChar c ++ encodeRunes cs :=
      List.flatMap_cons
    have hlength : (String.utf8EncodeChar c).length = c.utf8Size := String.length_utf8EncodeChar c
    rw [hbytes]
    by_cases hn : c.utf8Size ≤ n
    · obtain ⟨front, back, foreign, rfl, hread, hforeign, hback⟩ := ih (n - c.utf8Size)
      refine ⟨c :: front, back, foreign, rfl, ?_, hforeign, fun hlt => hback ?_⟩
      · rw [List.take_append, List.take_of_length_le (hlength ▸ hn), hlength, decodeRunes_char,
          hread, List.cons_append]
      · rw [List.length_append, hlength] at hlt
        omega
    · refine ⟨[], c :: cs, decodeRunes ((String.utf8EncodeChar c).take n), rfl, ?_, ?_,
        fun _ => List.cons_ne_nil _ _⟩
      · rw [List.take_append_of_le_length (by omega), List.nil_append]
      · cases n with
        | zero =>
          rw [List.take_zero, decodeRunes]
          exact List.forall_mem_nil _
        | succ n =>
          apply decodeRunes_foreign
          intro b hb
          exact bytes_of_long (by omega) b (List.mem_of_mem_take hb)

end Bytes

section Reader

variable {c : Char} {text front back foreign : List Char} {tokens us out : List Token}
  {k l : Lexer} {p : Parser} {v w : Value}

theorem lexFrom_append (l : Lexer) (front back : List Char) :
    lexFrom l (front ++ back) = (front.foldlM lexStep l).bind fun k => lexFrom k back := by
  induction front generalizing l with
  | nil => rfl
  | cons c front ih =>
    rw [List.cons_append, lexFrom, List.foldlM_cons, Option.bind_eq_bind, Option.bind_assoc]
    exact Option.bind_congr fun k _ => ih k

theorem tokens_foldlM (h : front.foldlM lexStep l = some k) : l.tokens <+: k.tokens := by
  induction front generalizing l with
  | nil =>
    cases h
    exact List.prefix_rfl
  | cons c front ih =>
    obtain ⟨next, hnext, h⟩ := Option.bind_eq_some_iff.mp h
    exact (tokens_lexStep hnext).trans (ih h)

theorem lexFrom_brace (h : lexFrom l ['\x7d'] = some out) :
    ∃ before, out = before ++ [.closeObject] ∧ l.tokens <+: before := by
  obtain ⟨mode, tokens⟩ := l
  cases mode with
  | gap =>
    cases h
    exact ⟨tokens, rfl, List.prefix_rfl⟩
  | word w =>
    cases h
    exact ⟨tokens ++ [.word w], rfl, List.prefix_append _ _⟩
  | string pieces => cases h
  | escape pieces => cases h
  | unit pieces count value => cases h

theorem tokens_foreign (h : 0x80 ≤ c.toNat) (hstep : lexStep l c = some k) :
    k.tokens = l.tokens := by
  have hne {d : Char} (hd : d.toNat < 0x80) : c ≠ d := by
    rintro rfl
    omega
  have hwhite : isWhite c = false := by
    simp [isWhite, hne]
  have hmark := (foreign_of_nonascii h).mark
  have hquote := (foreign_of_nonascii h).quote
  obtain ⟨mode, tokens⟩ := l
  cases mode with
  | gap =>
    simp only [lexStep, atGap, hwhite, hquote, hmark, if_false, Bool.false_eq_true] at hstep
    cases hstep
    rfl
  | word w =>
    have hdelimiter : isDelimiter c = false := by
      simp [isDelimiter, hwhite, hquote, hmark]
    simp only [lexStep, hdelimiter, if_false, Bool.false_eq_true] at hstep
    cases hstep
    rfl
  | string pieces =>
    simp only [lexStep, if_neg hquote, if_neg (hne (d := '\\') (by decide))] at hstep
    split at hstep
    · cases hstep
    · cases hstep
      rfl
  | escape pieces =>
    simp only [lexStep, if_neg (hne (d := 'u') (by decide))] at hstep
    obtain ⟨d, -, rfl⟩ := Option.map_eq_some_iff.mp hstep
    rfl
  | unit pieces count value =>
    simp only [lexStep] at hstep
    obtain ⟨d, -, rfl⟩ := Option.map_eq_some_iff.mp hstep
    split <;> rfl

theorem lexFrom_foreign (h : ∀ c ∈ foreign, 0x80 ≤ c.toNat) (hlex : lexFrom l foreign = some out) :
    out = l.tokens ∨ ∃ w, out = l.tokens ++ [.word w] := by
  induction foreign generalizing l with
  | nil =>
    simp only [lexFrom, Lexer.finish] at hlex
    split at hlex
    · exact .inl (Option.some.inj hlex).symm
    · exact .inr ⟨_, (Option.some.inj hlex).symm⟩
    · cases hlex
  | cons c foreign ih =>
    obtain ⟨hc, hforeign⟩ := List.forall_mem_cons.mp h
    obtain ⟨next, hnext, hlex⟩ := Option.bind_eq_some_iff.mp hlex
    rw [← tokens_foreign hc hnext]
    exact ih hforeign hlex

theorem finish_eq_some (h : p.finish = some v) : p = ⟨.more v, []⟩ := by
  obtain ⟨expect, frames⟩ := p
  simp only [Parser.finish] at h
  split at h
  · cases h
    simp_all
  · cases h

theorem parseFrom_prefix (h : parseFrom p tokens = some v) (hmore : parseFrom p us = some w)
    (hfront : tokens <+: us) : tokens = us := by
  induction tokens generalizing p us with
  | nil =>
    cases us with
    | nil => rfl
    | cons token us =>
      rw [finish_eq_some h] at hmore
      cases token <;> cases hmore
  | cons token tokens ih =>
    obtain ⟨rest, rfl⟩ := hfront
    rw [List.cons_append] at hmore
    obtain ⟨q, hq, h⟩ := Option.bind_eq_some_iff.mp h
    obtain ⟨q', hq', hmore⟩ := Option.bind_eq_some_iff.mp hmore
    cases hq.symm.trans hq'
    rw [List.cons_append, ← ih h hmore (List.prefix_append _ _)]

theorem parseFrom_word {u : List Char} (hp : ∀ first, p ≠ ⟨.value first, []⟩) :
    parseFrom p (tokens ++ [.word u]) = none := by
  induction tokens generalizing p with
  | nil =>
    obtain ⟨expect, frames⟩ := p
    cases expect with
    | value first =>
      cases frames with
      | nil => exact absurd rfl (hp first)
      | cons frame frames =>
        simp only [List.nil_append, parseFrom, parseStep]
        cases scalar u <;> rfl
    | key members first => rfl
    | colon members key => rfl
    | more v => cases frames <;> rfl
  | cons token tokens ih =>
    rw [List.cons_append, parseFrom]
    cases hstep : parseStep p token with
    | none => rfl
    | some q => exact ih (parseStep_begun hstep)

theorem parse_cut (h : parse ('\x7b' :: (front ++ back ++ ['\x7d'])) = some v)
    (hforeign : ∀ c ∈ foreign, 0x80 ≤ c.toNat) : parse ('\x7b' :: (front ++ foreign)) = none := by
  have hbegin (text : List Char) : lex ('\x7b' :: text) = lexFrom ⟨.gap, [.openObject]⟩ text := rfl
  unfold parse at h ⊢
  rw [hbegin, List.append_assoc, lexFrom_append] at h
  rw [hbegin, lexFrom_append]
  obtain ⟨all, hall, h⟩ := Option.bind_eq_some_iff.mp h
  obtain ⟨l, hl, hall⟩ := Option.bind_eq_some_iff.mp hall
  rw [hl, Option.bind_some]
  rw [lexFrom_append] at hall
  obtain ⟨k, hk, hall⟩ := Option.bind_eq_some_iff.mp hall
  obtain ⟨before, rfl, hbefore⟩ := lexFrom_brace hall
  have hread : l.tokens <+: before := (tokens_foldlM hk).trans hbefore
  obtain ⟨inner, hinner⟩ := tokens_foldlM hl
  cases hcut : lexFrom l foreign with
  | none => rfl
  | some tokens =>
    rw [Option.bind_some]
    rcases lexFrom_foreign hforeign hcut with rfl | ⟨u, rfl⟩
    · cases hshort : parseFrom ⟨.value false, []⟩ l.tokens with
      | none => rfl
      | some w =>
        have hwhole := parseFrom_prefix hshort h (hread.trans (List.prefix_append _ _))
        have hlength := congrArg List.length hwhole
        rw [List.length_append, List.length_singleton] at hlength
        have := hread.length_le
        omega
    · rw [← hinner]
      have hopen : parseStep ⟨.value false, []⟩ .openObject = some ⟨.key [] true, []⟩ := rfl
      rw [List.cons_append, List.cons_append, List.nil_append, parseFrom, hopen, Option.bind_some]
      exact parseFrom_word (parseStep_begun hopen)

end Reader

/-- The text of an object that is cut at a byte is read if it is whole, else not. -/
theorem parse_take {members : List (String × Value)} {n : Nat}
    (h : (Value.object members).Within maxNestingDepth) (hn : 0 < n) :
    parse (decodeRunes ((encodeRunes (Value.object members).compact).take n)) =
      if (encodeRunes (Value.object members).compact).length ≤ n then some (.object members)
      else none := by
  split
  next hle => rw [List.take_of_length_le hle, decodeRunes_encodeRunes, parse_compact h]
  next hlt =>
    obtain ⟨n, rfl⟩ := Nat.exists_eq_succ_of_ne_zero hn.ne'
    have hparse := parse_compact h
    have hbrace (text : List Char) :
        encodeRunes ('\x7b' :: text) = String.utf8EncodeChar '\x7b' ++ encodeRunes text :=
      List.flatMap_cons
    have hone : String.utf8EncodeChar '\x7b' = [0x7b] := rfl
    have htake (text : List Char) : decodeRunes ((encodeRunes ('\x7b' :: text)).take (n + 1)) =
        '\x7b' :: decodeRunes ((encodeRunes text).take n) := by
      rw [hbrace, hone, List.singleton_append, List.take_succ_cons, ← List.singleton_append, ← hone,
        decodeRunes_char]
    rw [Value.compact] at hparse hlt ⊢
    rw [Nat.succ_eq_add_one, htake]
    obtain ⟨front, back, foreign, hsplit, hread, hforeign, hback⟩ :=
      decodeRunes_take ((compactMembers members).tail ++ ['\x7d']) n
    rw [hread]
    have hne : back ≠ [] := hback (by
      rw [hbrace, hone, List.length_append, List.length_singleton] at hlt
      omega)
    obtain ⟨back, last, rfl⟩ := (List.eq_nil_or_concat back).resolve_left hne
    rw [List.concat_eq_append, ← List.append_assoc] at hsplit
    obtain ⟨htail, hlast⟩ := List.append_inj' hsplit rfl
    cases hlast
    rw [htail] at hparse
    exact parse_cut hparse hforeign

end LearnPg.Basis.CutText
