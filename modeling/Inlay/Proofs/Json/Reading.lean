import Inlay.Json.Writer
import Inlay.Proofs.Json.Parsing

/-! The text that is written for a document spells it, in whatever way it is laid out, and so the
document is read back from it. -/

namespace Inlay.Json

/-- Documents that have a text: their integers are not too long and their floats are finite. -/
inductive Writable : Json → Prop
  | null : Writable .null
  | bool (b : Bool) : Writable (.bool b)
  | int {n : Int} : n.natAbs < 10 ^ Number.digitCap → Writable (.int n)
  | float {x : Binary64} : x.isFinite = true → Writable (.float x)
  | text (s : String) : Writable (.text s)
  | array {items : List Json} : (∀ j ∈ items, Writable j) → Writable (.array items)
  | object {members : List (String × Json)} : (∀ m ∈ members, Writable m.2) →
    Writable (.object members)

structure Layout.Blank (layout : Layout) : Prop where
  breakAt : ∀ depth, ∀ c ∈ layout.breakAt depth, isSpace c = true
  colon : ∃ blanks, layout.colon = ':' :: blanks ∧ ∀ c ∈ blanks, isSpace c = true

theorem Layout.blank_compact : Layout.compact.Blank where
  breakAt _ _ hc := by cases hc
  colon := ⟨[], rfl, by simp⟩

theorem Layout.blank_indented (width : Nat) : (Layout.indented width).Blank where
  breakAt depth c hc := by
    rcases List.mem_cons.1 hc with rfl | hc
    · rfl
    · rw [List.eq_of_mem_replicate hc]
      rfl
  colon := ⟨[' '], rfl, by simp [isSpace]⟩

/-! Tokens. -/

theorem numberText_intText {n : Int} (hn : n.natAbs < 10 ^ Number.digitCap) :
    NumberText (Number.intText n) (.int n) := by
  have hl : (Nat.toDigits 10 n.natAbs).length ≤ Number.digitCap :=
    Binary64.length_toDigits_le (by decide) hn
  have h : NumberText (minus (decide (n < 0)) ++ Nat.toDigits 10 n.natAbs)
      (.int (Binary64.signed (decide (n < 0)) (numberOf (Nat.toDigits 10 n.natAbs)))) :=
    .int (Number.isWhole_toDigits _) hl
  rw [numberOf, Nat.ofDigitChars_ten_toDigits, Binary64.signed_natAbs] at h
  simpa [minus, Number.intText] using h

theorem numberText_spelling (p : Spelling) (negative : Bool) :
    NumberText (minus negative ++ p.text) (.float (p.value negative)) := by
  have hpart : Fraction (Spelling.fractionText p.part) (p.part.getD []) := by
    cases h : p.part with
    | none => exact .absent
    | some ds => exact .digits (p.part_digits ds h)
  have hpower : Exponent (Spelling.powerText p.power) (Spelling.exponent p.power) := by
    cases h : p.power with
    | none => exact .absent
    | some sd =>
      obtain ⟨negative, ds⟩ := sd
      have hds : AreDigits ds := p.power_digits negative ds h
      cases negative with
      | true => exact @Exponent.digits 'e' ['-'] ds (.inl rfl) (by simp) hds
      | false => exact @Exponent.digits 'e' ['+'] ds (.inl rfl) (by simp) hds
  have hfloat : Spelling.fractionText p.part ≠ [] ∨ Spelling.powerText p.power ≠ [] := by
    refine p.isFloat.imp (fun h => ?_) fun h => ?_
    · obtain ⟨ds, hds⟩ := Option.ne_none_iff_exists'.1 h
      simp [hds, Spelling.fractionText]
    · obtain ⟨sd, hsd⟩ := Option.ne_none_iff_exists'.1 h
      simp [hsd, Spelling.powerText]
  rw [Spelling.text, List.append_assoc]
  exact .float p.whole_isWhole hpart hpower hfloat

theorem numberText_float {x : Binary64} (hx : x.isFinite = true) :
    NumberText x.text.toList (.float x) := by
  match x, hx with
  | .finite negative m e h, _ =>
    obtain ⟨p, ht, hv⟩ := Binary64.exists_spelling h
    have hp := numberText_spelling p negative
    rw [hv] at hp
    rwa [Binary64.text, ht, String.toList_ofList]

theorem isUnit_hex {n : Nat} (hn : n < 0x20) : IsUnit (Text.hex 4 n) n := by
  have hhex : ∀ n < 0x20,
      Text.hex 4 n = ['0', '0', Nat.digitChar (n / 16), Nat.digitChar (n % 16)] := by decide
  have hunit : IsUnit ['0', '0', Nat.digitChar (n / 16), Nat.digitChar (n % 16)]
      (0 * 0x1000 + 0 * 0x100 + n / 16 * 0x10 + n % 16) :=
    .digits ⟨by decide, .inl rfl⟩ ⟨by decide, .inl rfl⟩ ⟨by omega, .inl rfl⟩ ⟨by omega, .inl rfl⟩
  rw [hhex n hn]
  convert hunit using 1
  omega

theorem StringBody.escapeChar {cs es : List Char} (c : Char) (h : StringBody cs es) :
    StringBody (escapeChar c ++ cs) (c :: es) := by
  have hof : Char.ofNat c.toNat = c := Char.ofNat_toNat c
  rw [Json.escapeChar]
  split
  · next hc => exact .escape (by rcases hc with rfl | rfl <;> rfl) h
  next hplain =>
  split
  · next hc => exact .escape (hc ▸ rfl) h
  split
  · next hc => exact .escape (hc ▸ rfl) h
  split
  · next hc => exact .escape (hc ▸ rfl) h
  split
  · next hc =>
    rw [hc] at hof
    exact .escape (hof ▸ rfl) h
  split
  · next hc =>
    rw [hc] at hof
    exact .escape (hof ▸ rfl) h
  split
  · next hc =>
    have hh : isHighSurrogate c.toNat = false := by
      simp only [isHighSurrogate, Bool.and_eq_false_iff, decide_eq_false_iff_not]
      omega
    have hl : isLowSurrogate c.toNat = false := by
      simp only [isLowSurrogate, Bool.and_eq_false_iff, decide_eq_false_iff_not]
      omega
    have hu := StringBody.unit (isUnit_hex hc) hh hl h
    rwa [hof] at hu
  · next hc =>
    exact .plain (Nat.le_of_not_lt hc) (fun hq => hplain (.inl hq)) (fun hb => hplain (.inr hb)) h

theorem stringBody_escape (cs : List Char) : StringBody (cs.flatMap Json.escapeChar) cs := by
  induction cs with
  | nil => exact .nil
  | cons c cs ih => exact ih.escapeChar c

theorem writeText_append (s : String) (rest : List Char) :
    writeText s rest = quoted (s.toList.flatMap escapeChar) ++ rest := by
  simp [writeText, quoted]

section

variable (layout : Layout)

mutual

theorem write_append (depth : Nat) : ∀ (j : Json) (rest : List Char),
    write layout depth j rest = write layout depth j [] ++ rest
  | .null, _ | .bool true, _ | .bool false, _ => rfl
  | .int _, _ | .float _, _ => by simp [write]
  | .text _, _ => by simp [write, writeText]
  | .array items, rest => by
    rw [write, write, writeItems_append depth true items (']' :: rest),
      writeItems_append depth true items [']']]
    simp
  | .object members, rest => by
    rw [write, write, writeMembers_append depth true members ('}' :: rest),
      writeMembers_append depth true members ['}']]
    simp

theorem writeItems_append (depth : Nat) (first : Bool) : ∀ (items : List Json) (rest : List Char),
    writeItems layout depth first items rest = writeItems layout depth first items [] ++ rest
  | [], rest => by cases first <;> simp [writeItems]
  | j :: items, rest => by
    rw [writeItems, writeItems,
      write_append (depth + 1) j (writeItems layout depth false items rest),
      write_append (depth + 1) j (writeItems layout depth false items []),
      writeItems_append depth false items rest]
    simp only [List.append_assoc]

theorem writeMembers_append (depth : Nat) (first : Bool) :
    ∀ (members : List (String × Json)) (rest : List Char),
    writeMembers layout depth first members rest =
      writeMembers layout depth first members [] ++ rest
  | [], rest => by cases first <;> simp [writeMembers]
  | (name, j) :: members, rest => by
    rw [writeMembers, writeMembers,
      write_append (depth + 1) j (writeMembers layout depth false members rest),
      write_append (depth + 1) j (writeMembers layout depth false members []),
      writeMembers_append depth false members rest]
    simp only [writeText, List.append_assoc, List.cons_append]

end

end

theorem Writable.write_ne_nil {j : Json} (h : Writable j) (layout : Layout) (depth : Nat) :
    write layout depth j [] ≠ [] := by
  have hnumber : ∀ {cs : List Char} {j : Json}, NumberText cs j → cs ++ [] ≠ [] := by
    intro cs j hn
    obtain ⟨c, tail, he, -⟩ := hn.starts []
    rw [he]
    exact List.cons_ne_nil c tail
  cases h with
  | int hn => exact hnumber (numberText_intText hn)
  | float hx => exact hnumber (numberText_float hx)
  | bool b => cases b <;> simp [write]
  | _ => simp [write, writeText]

section

variable {layout : Layout} (hl : layout.Blank)

include hl

theorem spells_writeItems {depth : Nat} {j : Json} {items : List Json}
    (h : ∀ i ∈ j :: items, Spells (.value i) (write layout (depth + 1) i [])) :
    Spells (.items (j :: items)) (writeItems layout depth true (j :: items) []) := by
  induction items generalizing j with
  | nil =>
    have hj := Spells.item (hl.breakAt (depth + 1)) (h j List.mem_cons_self) (hl.breakAt depth)
    refine .lastItem ?_
    rw [writeItems, write_append]
    simpa [writeItems] using hj
  | cons i items ih =>
    have hj := Spells.item (hl.breakAt (depth + 1)) (h j List.mem_cons_self) isBlank_nil
    have hnext := Spells.nextItem hj (ih fun a ha => h a (List.mem_cons_of_mem j ha))
    rw [writeItems, write_append]
    simpa [writeItems] using hnext

theorem spells_writeMembers {depth : Nat} {name : String} {j : Json}
    {members : List (String × Json)}
    (h : ∀ m ∈ (name, j) :: members, Spells (.value m.2) (write layout (depth + 1) m.2 [])) :
    Spells (.members ((name, j) :: members))
      (writeMembers layout depth true ((name, j) :: members) []) := by
  obtain ⟨blanks, hc, hb⟩ := hl.colon
  have hmember : ∀ (name : String) {j : Json} {back : List Char}, IsBlank back →
      Spells (.value j) (write layout (depth + 1) j []) →
      Spells (.member name j) (layout.breakAt (depth + 1) ++
        writeText name (layout.colon ++ write layout (depth + 1) j back)) := by
    intro name j back hback hj
    have hm := Spells.member (hl.breakAt (depth + 1)) (stringBody_escape name.toList) isBlank_nil
      (.item hb hj hback)
    rw [String.ofList_toList] at hm
    rw [writeText_append, hc, write_append]
    exact hm
  induction members generalizing name j with
  | nil =>
    have hend : IsBlank (writeMembers layout depth false [] []) := by
      simpa [writeMembers, IsBlank] using hl.breakAt depth
    exact .lastMember (hmember name hend (h _ List.mem_cons_self))
  | cons m members ih =>
    obtain ⟨name', i⟩ := m
    have hnext := Spells.nextMember (hmember name isBlank_nil (h _ List.mem_cons_self))
      (ih fun a ha => h a (List.mem_cons_of_mem _ ha))
    rw [writeMembers, write_append, writeText_append]
    rw [writeText_append] at hnext
    simpa [writeMembers] using hnext

theorem Writable.spells {j : Json} (h : Writable j) (depth : Nat) :
    Spells (.value j) (write layout depth j []) := by
  induction h generalizing depth with
  | null => exact .null
  | bool b =>
    cases b with
    | true => exact .isTrue
    | false => exact .isFalse
  | int hn =>
    rw [write, List.append_nil]
    exact .number (numberText_intText hn)
  | float hx =>
    rw [write, List.append_nil]
    exact .number (numberText_float hx)
  | text s =>
    have ht := Spells.text (stringBody_escape s.toList)
    rwa [String.ofList_toList, ← List.append_nil (quoted _), ← writeText_append] at ht
  | @array items _ ih =>
    rw [write, writeItems_append]
    cases items with
    | nil => exact .emptyArray isBlank_nil
    | cons j items => exact .array (spells_writeItems hl fun i hi => ih i hi (depth + 1))
  | @object members _ ih =>
    rw [write, writeMembers_append]
    cases members with
    | nil => exact .emptyObject isBlank_nil
    | cons m members => exact .object (spells_writeMembers hl fun m hm => ih m hm (depth + 1))

theorem ofText_toText {j : Json} (h : Writable j) : ofText (toText layout j).toList = .ok j := by
  have hs := Spells.item isBlank_nil (h.spells hl 0) isBlank_nil
  rw [List.append_nil, List.nil_append] at hs
  rw [toText, String.toList_ofList, ofText_eq_ok_iff]
  exact hs

end

end Inlay.Json
