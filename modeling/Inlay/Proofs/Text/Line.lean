import Inlay.Text.Line

/-! Texts before and after their line ends are written in one way. -/

namespace Inlay.Text

variable {cs ds : List Char} {c : Char}

theorem unifyLineEnds_cons (hc : c ≠ '\r') (cs : List Char) :
    unifyLineEnds (c :: cs) = c :: unifyLineEnds cs :=
  unifyLineEnds.eq_3 c cs (fun _ he _ => hc he) hc

theorem unifyLineEnds_of_notMem (h : '\r' ∉ cs) : unifyLineEnds cs = cs := by
  induction cs with
  | nil => rfl
  | cons c cs ih =>
    rw [List.mem_cons, not_or] at h
    rw [unifyLineEnds_cons (Ne.symm h.1), ih h.2]

theorem notMem_unifyLineEnds (cs : List Char) : '\r' ∉ unifyLineEnds cs := by
  fun_induction unifyLineEnds cs with
  | case1 | case2 => simpa
  | case3 c rest _ hc ih => exact List.not_mem_cons_of_ne_of_not_mem (Ne.symm hc) ih
  | case4 => exact List.not_mem_nil

theorem unifyLineEnds_eq_self_iff : unifyLineEnds cs = cs ↔ '\r' ∉ cs :=
  ⟨fun h => h ▸ notMem_unifyLineEnds cs, unifyLineEnds_of_notMem⟩

theorem unifyLineEnds_of_notMem_unifyLineEnds (h : '\n' ∉ unifyLineEnds cs) :
    unifyLineEnds cs = cs := by
  fun_induction unifyLineEnds cs with
  | case1 | case2 => exact absurd List.mem_cons_self h
  | case3 c rest _ _ ih => rw [ih fun hm => h (List.mem_cons_of_mem c hm)]
  | case4 => rfl

theorem unifyLineEnds_append (h : cs.getLast? = some '\r' → ds.head? ≠ some '\n') :
    unifyLineEnds (cs ++ ds) = unifyLineEnds cs ++ unifyLineEnds ds := by
  have hrest : ∀ {c : Char} {rest : List Char}, rest.getLast? = some '\r' →
      (c :: rest).getLast? = some '\r' := fun hl => by rw [List.getLast?_cons, hl]; rfl
  fun_induction unifyLineEnds cs with
  | case1 rest ih =>
    rw [List.cons_append, List.cons_append, unifyLineEnds, ih fun hl => h (hrest (hrest hl)),
      List.cons_append]
  | case2 rest hr ih =>
    -- The carriage return is a line end by itself, unless the next text starts with a line feed.
    have hn : ∀ tail, rest ++ ds = '\n' :: tail → False := by
      intro tail he
      cases rest with
      | nil => exact h rfl (congrArg List.head? he)
      | cons d rest => exact hr rest (by rw [(List.cons.inj he).1])
    rw [List.cons_append, unifyLineEnds.eq_2 _ hn, ih fun hl => h (hrest hl), List.cons_append]
  | case3 d rest _ hd ih =>
    rw [List.cons_append, unifyLineEnds_cons hd, ih fun hl => h (hrest hl), List.cons_append]
  | case4 => rfl

theorem of_unifyLineEnds_eq_append {as bs : List Char} (h : unifyLineEnds cs = as ++ bs) :
    ∃ as' bs', cs = as' ++ bs' ∧ unifyLineEnds as' = as ∧ unifyLineEnds bs' = bs := by
  fun_induction unifyLineEnds cs generalizing as with
  | case1 rest ih =>
    cases as with
    | nil => exact ⟨[], _, rfl, rfl, h⟩
    | cons a as =>
      obtain ⟨rfl, ht⟩ := List.cons.inj h
      obtain ⟨as', bs', rfl, rfl, hb⟩ := ih ht
      exact ⟨'\r' :: '\n' :: as', bs', rfl, rfl, hb⟩
  | case2 rest hr ih =>
    cases as with
    | nil => exact ⟨[], _, rfl, rfl, (unifyLineEnds.eq_2 rest hr).trans h⟩
    | cons a as =>
      obtain ⟨rfl, ht⟩ := List.cons.inj h
      obtain ⟨as', bs', rfl, rfl, hb⟩ := ih ht
      exact ⟨'\r' :: as', bs', rfl, unifyLineEnds.eq_2 as' fun tail he => hr (tail ++ bs') (by
        rw [he, List.cons_append]), hb⟩
  | case3 c rest _ hc ih =>
    cases as with
    | nil => exact ⟨[], _, rfl, rfl, (unifyLineEnds_cons hc rest).trans h⟩
    | cons a as =>
      obtain ⟨rfl, ht⟩ := List.cons.inj h
      obtain ⟨as', bs', rfl, rfl, hb⟩ := ih ht
      exact ⟨c :: as', bs', rfl, unifyLineEnds_cons hc as', hb⟩
  | case4 =>
    obtain ⟨rfl, rfl⟩ := List.append_eq_nil_iff.1 h.symm
    exact ⟨[], [], rfl, rfl, rfl⟩

end Inlay.Text
