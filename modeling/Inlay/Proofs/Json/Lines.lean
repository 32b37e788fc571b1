import Inlay.Proofs.Json.Parsing
import Inlay.Proofs.Text.Line

/-! A document is the same whichever line ends its text has: they only stand between its tokens. -/

namespace Inlay.Json

open Text

def IsLine (cs : List Char) : Prop := ∀ c ∈ cs, 0x20 ≤ c.toNat

theorem isLine_nil : IsLine [] := nofun

theorem IsLine.append {cs ds : List Char} (hc : IsLine cs) (hd : IsLine ds) : IsLine (cs ++ ds) :=
  List.forall_mem_append.2 ⟨hc, hd⟩

theorem IsLine.cons {c : Char} {cs : List Char} (hc : 0x20 ≤ c.toNat) (h : IsLine cs) :
    IsLine (c :: cs) :=
  List.forall_mem_cons.2 ⟨hc, h⟩

theorem IsLine.notMem {cs : List Char} (h : IsLine cs) : '\r' ∉ cs ∧ '\n' ∉ cs :=
  ⟨fun hm => absurd (h _ hm) (by decide), fun hm => absurd (h _ hm) (by decide)⟩

theorem IsLine.of_isDigit {ds : List Char} (h : ∀ c ∈ ds, c.isDigit = true) : IsLine ds := by
  intro c hc
  have hd := h c hc
  simp only [Char.isDigit, Bool.and_eq_true, decide_eq_true_eq, UInt32.le_iff_toNat_le] at hd
  exact Nat.le_trans (by decide) hd.1

theorem isLine_minus (negative : Bool) : IsLine (minus negative) := by
  cases negative <;> simp [IsLine, minus]

theorem IsHexDigit.isLine {c : Char} {d : Nat} (h : IsHexDigit c d) : 0x20 ≤ c.toNat := by
  have hall : ∀ n < 16,
      0x20 ≤ (Nat.digitChar n).toNat ∧ 0x20 ≤ (Nat.digitChar n).toUpper.toNat := by
    decide
  obtain ⟨hd, rfl | rfl⟩ := h
  · exact (hall d hd).1
  · exact (hall d hd).2

theorem IsUnit.isLine {unit : List Char} {n : Nat} (h : IsUnit unit n) : IsLine unit := by
  cases h with
  | digits ha hb hc hd =>
    exact .cons ha.isLine (.cons hb.isLine (.cons hc.isLine (.cons hd.isLine isLine_nil)))

theorem StringBody.isLine {cs es : List Char} (h : StringBody cs es) : IsLine cs := by
  have hmark : ∀ {mark c : Char}, escaped? mark = some c → 0x20 ≤ mark.toNat := by
    intro mark c he
    unfold escaped? at he
    split at he <;> first | decide | cases he
  induction h with
  | nil => exact isLine_nil
  | plain hc _ _ _ ih => exact .cons hc ih
  | escape he _ ih => exact .cons (by decide) (.cons (hmark he) ih)
  | unit hu _ _ _ ih => exact .cons (by decide) (.cons (by decide) (hu.isLine.append ih))
  | pair hu hu' _ _ _ ih =>
    exact .cons (by decide) (.cons (by decide) (hu.isLine.append
      (.cons (by decide) (.cons (by decide) (hu'.isLine.append ih)))))
  | half hu _ _ ih => exact .cons (by decide) (.cons (by decide) (hu.isLine.append ih))

theorem isLine_quoted {cs es : List Char} (h : StringBody cs es) : IsLine (quoted cs) :=
  .cons (by decide) (h.isLine.append (.cons (by decide) isLine_nil))

theorem NumberText.isLine {cs : List Char} {j : Json} (h : NumberText cs j) : IsLine cs := by
  cases h with
  | int hd _ => exact (isLine_minus _).append (.of_isDigit hd.digits)
  | float hd hp hn _ =>
    refine (isLine_minus _).append ((IsLine.of_isDigit hd.digits).append (.append ?_ ?_))
    · cases hp with
      | absent => exact isLine_nil
      | digits hds => exact .cons (by decide) (.of_isDigit hds.2)
    · cases hn with
      | absent => exact isLine_nil
      | digits hmark hsign hds =>
        have hs := IsLine.of_isDigit hds.2
        simp only [List.mem_cons, List.not_mem_nil, or_false] at hsign
        rcases hmark with rfl | rfl <;> rcases hsign with rfl | rfl | rfl <;>
          simp only [List.nil_append, List.cons_append] <;>
          first
            | exact .cons (by decide) hs
            | exact .cons (by decide) (.cons (by decide) hs)

theorem IsLine.unify {cs : List Char} (h : IsLine cs) : unifyLineEnds cs = cs :=
  unifyLineEnds_of_notMem h.notMem.1

theorem IsLine.of_unify {cs : List Char} (h : IsLine (unifyLineEnds cs)) : unifyLineEnds cs = cs :=
  unifyLineEnds_of_notMem_unifyLineEnds h.notMem.2

theorem of_unify_eq {cs ds : List Char} (hd : IsLine ds) (h : unifyLineEnds cs = ds) : cs = ds := by
  subst h
  exact hd.of_unify.symm

theorem isBlank_unify {cs : List Char} : IsBlank (unifyLineEnds cs) ↔ IsBlank cs := by
  have hspace : ∀ {c : Char} {ds : List Char}, IsBlank (c :: ds) ↔ isSpace c = true ∧ IsBlank ds :=
    List.forall_mem_cons
  fun_induction unifyLineEnds cs with
  | case1 rest ih => simp [hspace, ih, isSpace]
  | case2 rest _ ih => simp [hspace, ih, isSpace]
  | case3 c rest _ _ ih => exact hspace.trans ((and_congr_right' ih).trans hspace.symm)
  | case4 => exact Iff.rfl

theorem Spells.getLast?_ne {cs : List Char} {j : Json} (h : Spells (.value j) cs) :
    cs.getLast? ≠ some '\r' := by
  have hline : ∀ {cs : List Char}, IsLine cs → cs.getLast? ≠ some '\r' := fun hc hl =>
    hc.notMem.1 (List.mem_of_getLast? hl)
  cases h with
  | null | isTrue | isFalse | nan => decide
  | infinite negative => cases negative <;> decide
  | number hn => exact hline hn.isLine
  | text hb => exact hline (isLine_quoted hb)
  | _ => simp [List.getLast?_cons, List.getLast?_append]

theorem Spells.head?_ne {cs : List Char} {j : Json} (h : Spells (.value j) cs) (rest : List Char) :
    (cs ++ rest).head? ≠ some '\n' := by
  obtain ⟨c, tail, he, hc, -⟩ := h.starts rest
  rw [he]
  rintro ⟨⟩
  exact absurd hc (by decide)

theorem unify_append_cons {c : Char} (hr : c ≠ '\r') (hn : c ≠ '\n') (cs ds : List Char) :
    unifyLineEnds (cs ++ c :: ds) = unifyLineEnds cs ++ c :: unifyLineEnds ds := by
  have hd : cs.getLast? = some '\r' → (c :: ds).head? ≠ some '\n' := fun _ => by simpa using hn
  rw [unifyLineEnds_append hd, unifyLineEnds_cons hr]

theorem Spells.unify {phrase : Phrase} {cs : List Char} (h : Spells phrase cs) :
    Spells phrase (unifyLineEnds cs) := by
  induction h with
  | null => exact .null
  | isTrue => exact .isTrue
  | isFalse => exact .isFalse
  | nan => exact .nan
  | infinite negative => cases negative <;> exact .infinite _
  | number hn => rw [hn.isLine.unify]; exact .number hn
  | text hb => rw [(isLine_quoted hb).unify]; exact .text hb
  | emptyArray hb =>
    rw [unifyLineEnds_cons (by decide), unify_append_cons (by decide) (by decide)]
    exact .emptyArray (isBlank_unify.2 hb)
  | array _ ih =>
    rw [unifyLineEnds_cons (by decide), unify_append_cons (by decide) (by decide)]
    exact .array ih
  | emptyObject hb =>
    rw [unifyLineEnds_cons (by decide), unify_append_cons (by decide) (by decide)]
    exact .emptyObject (isBlank_unify.2 hb)
  | object _ ih =>
    rw [unifyLineEnds_cons (by decide), unify_append_cons (by decide) (by decide)]
    exact .object ih
  | item hf hv hb ih =>
    -- No line end is divided, for a value neither starts nor ends with a part of one.
    rw [unifyLineEnds_append fun _ => hv.head?_ne _,
      unifyLineEnds_append fun hl => absurd hl hv.getLast?_ne]
    exact .item (isBlank_unify.2 hf) ih (isBlank_unify.2 hb)
  | lastItem _ ih => exact .lastItem ih
  | nextItem _ _ ih ihs =>
    rw [unify_append_cons (by decide) (by decide)]
    exact .nextItem ih ihs
  | member hf hbody hb _ ih =>
    have hq := isLine_quoted hbody
    rw [unifyLineEnds_append fun _ => by simp [quoted],
      unifyLineEnds_append fun hl => absurd (List.mem_of_getLast? hl) hq.notMem.1, hq.unify,
      unify_append_cons (by decide) (by decide)]
    exact .member (isBlank_unify.2 hf) hbody (isBlank_unify.2 hb) ih
  | lastMember _ ih => exact .lastMember ih
  | nextMember _ _ ih ihs =>
    rw [unify_append_cons (by decide) (by decide)]
    exact .nextMember ih ihs

theorem of_unify_eq_cons {c : Char} (hc : 0x20 ≤ c.toNat) {cs as bs : List Char}
    (h : unifyLineEnds cs = as ++ c :: bs) :
    ∃ as' bs', cs = as' ++ c :: bs' ∧ unifyLineEnds as' = as ∧ unifyLineEnds bs' = bs := by
  obtain ⟨as', rest, rfl, ha, hrest⟩ := of_unifyLineEnds_eq_append h
  obtain ⟨cs', bs', rfl, hcs, hb⟩ := @of_unifyLineEnds_eq_append _ [c] _ hrest
  obtain rfl := of_unify_eq (.cons hc isLine_nil) hcs
  exact ⟨as', bs', rfl, ha, hb⟩

theorem of_unify_eq_bracketed {a b : Char} (ha : 0x20 ≤ a.toNat) (hb : 0x20 ≤ b.toNat)
    {cs ds : List Char} (h : unifyLineEnds cs = a :: (ds ++ [b])) :
    ∃ ds', cs = a :: (ds' ++ [b]) ∧ unifyLineEnds ds' = ds := by
  obtain ⟨front, rest, rfl, hf, hrest⟩ := @of_unify_eq_cons a ha _ [] _ h
  obtain ⟨ds', back, rfl, hd, hback⟩ := of_unify_eq_cons hb hrest
  obtain rfl := of_unify_eq isLine_nil hf
  obtain rfl := of_unify_eq isLine_nil hback
  exact ⟨ds', rfl, hd⟩

theorem Spells.of_unify {phrase : Phrase} {ts : List Char} (h : Spells phrase ts) {cs : List Char}
    (he : unifyLineEnds cs = ts) : Spells phrase cs := by
  induction h generalizing cs with
  | null => rw [of_unify_eq (by simp [IsLine]) he]; exact .null
  | isTrue => rw [of_unify_eq (by simp [IsLine]) he]; exact .isTrue
  | isFalse => rw [of_unify_eq (by simp [IsLine]) he]; exact .isFalse
  | nan => rw [of_unify_eq (by simp [IsLine]) he]; exact .nan
  | infinite negative =>
    rw [of_unify_eq ((isLine_minus negative).append (by simp [IsLine])) he]
    exact .infinite negative
  | number hn => rw [of_unify_eq hn.isLine he]; exact .number hn
  | text hb => rw [of_unify_eq (isLine_quoted hb) he]; exact .text hb
  | emptyArray hb =>
    obtain ⟨blanks, rfl, rfl⟩ := of_unify_eq_bracketed (by decide) (by decide) he
    exact .emptyArray (isBlank_unify.1 hb)
  | array _ ih =>
    obtain ⟨ds, rfl, hd⟩ := of_unify_eq_bracketed (by decide) (by decide) he
    exact .array (ih hd)
  | emptyObject hb =>
    obtain ⟨blanks, rfl, rfl⟩ := of_unify_eq_bracketed (by decide) (by decide) he
    exact .emptyObject (isBlank_unify.1 hb)
  | object _ ih =>
    obtain ⟨ds, rfl, hd⟩ := of_unify_eq_bracketed (by decide) (by decide) he
    exact .object (ih hd)
  | item hf _ hb ih =>
    obtain ⟨front, rest, rfl, rfl, hrest⟩ := of_unifyLineEnds_eq_append he
    obtain ⟨ds, back, rfl, hd, rfl⟩ := of_unifyLineEnds_eq_append hrest
    exact .item (isBlank_unify.1 hf) (ih hd) (isBlank_unify.1 hb)
  | lastItem _ ih => exact .lastItem (ih he)
  | nextItem _ _ ih ihs =>
    obtain ⟨as, bs, rfl, ha, hb⟩ := of_unify_eq_cons (by decide) he
    exact .nextItem (ih ha) (ihs hb)
  | member hf hbody hb _ ih =>
    obtain ⟨front, rest, rfl, rfl, hrest⟩ := of_unifyLineEnds_eq_append he
    obtain ⟨name, rest, rfl, hname, hrest⟩ := of_unifyLineEnds_eq_append hrest
    obtain ⟨back, ds, rfl, rfl, hd⟩ := of_unify_eq_cons (by decide) hrest
    obtain rfl := of_unify_eq (isLine_quoted hbody) hname
    exact .member (isBlank_unify.1 hf) hbody (isBlank_unify.1 hb) (ih hd)
  | lastMember _ ih => exact .lastMember (ih he)
  | nextMember _ _ ih ihs =>
    obtain ⟨as, bs, rfl, ha, hb⟩ := of_unify_eq_cons (by decide) he
    exact .nextMember (ih ha) (ihs hb)

/-- It does not matter to a document which line ends its text has. -/
theorem isDocument_unifyLineEnds {text : List Char} {j : Json} :
    IsDocument (unifyLineEnds text) j ↔ IsDocument text j :=
  ⟨fun h => h.of_unify rfl, Spells.unify⟩

end Inlay.Json
