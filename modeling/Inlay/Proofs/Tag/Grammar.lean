import Inlay.Tag.Scan
import Mathlib.Data.List.TakeWhile

/-! The grammar of tags. What is read at the start of a text is exactly what is printed there: the
one tag of the grammar whose text the text starts with. -/

namespace Inlay.Tag

def IsName (name : List Char) : Prop := name ≠ [] ∧ ∀ c ∈ name, isNameChar c

/-- The tags of the grammar. A path without a post-processor must not end like one that has it. -/
structure Admissible (cap : Nat) (t : Tag) : Prop where
  path_ne : t.path.toList ≠ []
  path_body : ∀ c ∈ t.path.toList, isBody c
  path_le : t.path.toList.length ≤ cap
  name : ∀ name, t.processor = some name → IsName name.toList
  unnamed : t.processor = none →
    ¬∃ path name, path ≠ [] ∧ IsName name ∧ t.path.toList = path ++ ':' :: ':' :: name

theorem isBody_of_isNameChar {c : Char} (h : isNameChar c) : isBody c := by
  simp only [isNameChar, Bool.or_eq_true, beq_iff_eq] at h
  rcases h with h | rfl
  · simp [isBody, Char.isAlphanum, h]
  · decide

theorem ending_some (name : String) (raw : Bool) :
    ending (some name) raw = ':' :: ':' :: (name.toList ++ ending none raw) := by
  simp [ending]

theorem ending_none_ne {raw : Bool} {c : Char} {rest u : List Char} (hc : isBody c) :
    ending none raw ++ u ≠ c :: rest := by
  intro h
  cases raw with
  | false => cases (List.cons.inj h).1; revert hc; decide
  | true => cases (List.cons.inj h).1; revert hc; decide

theorem closing?_ending (raw : Bool) (rest : List Char) :
    closing? (ending none raw ++ rest) = some raw := by
  cases raw <;> rfl

theorem eq_of_closing? {cs : List Char} {raw : Bool} (h : closing? cs = some raw) :
    ∃ rest, cs = ending none raw ++ rest := by
  revert h
  fun_cases closing? cs with
  | case1 rest => rintro ⟨⟩; exact ⟨rest, rfl⟩
  | case2 rest => rintro ⟨⟩; exact ⟨rest, rfl⟩
  | case3 => rintro ⟨⟩

theorem takeWhile_name_append {name : List Char} (hn : ∀ c ∈ name, isNameChar c) (raw : Bool)
    (rest : List Char) :
    (name ++ (ending none raw ++ rest)).takeWhile isNameChar = name ∧
      (name ++ (ending none raw ++ rest)).dropWhile isNameChar = ending none raw ++ rest := by
  rw [List.takeWhile_append_of_pos hn, List.dropWhile_append_of_pos hn]
  have htilde : isNameChar '~' = false := by decide
  have hslash : isNameChar '/' = false := by decide
  cases raw <;> simp [ending, htilde, hslash]

theorem takeWhile_body_append {path : List Char} (hp : ∀ c ∈ path, isBody c) (raw : Bool)
    (rest : List Char) :
    (path ++ (ending none raw ++ rest)).takeWhile isBody = path := by
  rw [List.takeWhile_append_of_pos hp]
  cases raw <;> simp [ending] <;> decide

theorem ending?_ending (name : Option String) (hn : ∀ n, name = some n → IsName n.toList)
    (raw : Bool) (rest : List Char) : ending? (ending name raw ++ rest) = some (name, raw) := by
  cases name with
  | none =>
    have hc := closing?_ending raw rest
    cases raw <;> simpa [ending, ending?] using hc
  | some n =>
    obtain ⟨hne, hall⟩ := hn n rfl
    obtain ⟨ht, hd⟩ := takeWhile_name_append hall raw rest
    simp only [ending_some, List.cons_append, List.append_assoc, ending?, ht, hd,
      List.isEmpty_iff, hne, if_false, closing?_ending, Option.map_some, String.ofList_toList]

theorem eq_of_ending? {cs : List Char} {name : Option String} {raw : Bool}
    (h : ending? cs = some (name, raw)) :
    (∀ n, name = some n → IsName n.toList) ∧ ∃ rest, cs = ending name raw ++ rest := by
  revert h
  fun_cases ending? cs with
  | case1 rest n hn => rintro ⟨⟩
  | case2 rest n hn =>
    intro h
    obtain ⟨r, hr, he⟩ := Option.map_eq_some_iff.1 h
    obtain ⟨rfl, rfl⟩ := Prod.mk.inj he
    obtain ⟨u, hu⟩ := eq_of_closing? hr
    have hs : rest = n ++ (ending none r ++ u) := by
      rw [← hu, List.takeWhile_append_dropWhile]
    refine ⟨?_, u, by simp [ending_some, hs]⟩
    rintro _ ⟨⟩
    refine ⟨by simpa using hn, fun c hc => ?_⟩
    rw [String.toList_ofList] at hc
    exact List.mem_takeWhile_imp hc
  | case3 =>
    intro h
    obtain ⟨r, hr, he⟩ := Option.map_eq_some_iff.1 h
    obtain ⟨rfl, rfl⟩ := Prod.mk.inj he
    exact ⟨by rintro _ ⟨⟩, eq_of_closing? hr⟩

theorem body?_append {cap : Nat} {path rest : List Char} {found : Option String × Bool}
    (hne : path ≠ []) (hb : ∀ c ∈ path, isBody c) (hle : path.length ≤ cap)
    (he : ending? rest = some found)
    (hs : ∀ p q, path = p ++ q → p ≠ [] → q ≠ [] → ending? (q ++ rest) = none) :
    body? cap (path ++ rest) = some (path, found) := by
  induction path generalizing cap with
  | nil => exact absurd rfl hne
  | cons c path ih =>
    obtain ⟨cap, rfl⟩ : ∃ n, cap = n + 1 := ⟨cap - 1, by simp at hle; omega⟩
    have hc : isBody c := hb c (List.mem_cons_self ..)
    cases path with
    | nil => simp [body?, hc, he]
    | cons d path =>
      have hn : ending? (d :: path ++ rest) = none := hs [c] (d :: path) rfl (by simp) (by simp)
      have hr : body? cap (d :: path ++ rest) = some (d :: path, found) :=
        ih (by simp) (fun a ha => hb a (List.mem_cons_of_mem _ ha)) (by simpa using hle)
          fun p q hpq hp hq => hs (c :: p) q (by rw [hpq]; rfl) (by simp) hq
      rw [List.cons_append, body?, if_pos hc, hn, hr]
      rfl

theorem eq_of_body? {cap : Nat} {cs path : List Char} {found : Option String × Bool}
    (h : body? cap cs = some (path, found)) :
    path ≠ [] ∧ (∀ c ∈ path, isBody c) ∧ path.length ≤ cap ∧
      ∃ rest, cs = path ++ rest ∧ ending? rest = some found ∧
        ∀ p q, path = p ++ q → p ≠ [] → q ≠ [] → ending? (q ++ rest) = none := by
  fun_induction body? cap cs generalizing path with
  | case1 cap c rest hc e he =>
    cases h
    refine ⟨by simp, by simpa using hc, by simp, rest, rfl, he, fun p q hpq hp hq => ?_⟩
    have hl := congrArg List.length hpq
    simp only [List.length_append, List.length_singleton] at hl
    have := List.length_pos_iff.2 hp
    have := List.length_pos_iff.2 hq
    omega
  | case2 cap c rest hc he ih =>
    obtain ⟨⟨p, e⟩, hp, heq⟩ := Option.map_eq_some_iff.1 h
    obtain ⟨rfl, rfl⟩ := Prod.mk.inj heq
    obtain ⟨hne, hb, hle, tail, rfl, ht, hs⟩ := ih hp
    refine ⟨by simp, by simpa [hc] using hb, by simpa using hle, tail, rfl, ht, ?_⟩
    intro p' q hpq hp' hq
    cases p' with
    | nil => exact absurd rfl hp'
    | cons d p' =>
      obtain ⟨rfl, htl⟩ : c = d ∧ p = p' ++ q := by simpa using hpq
      cases p' with
      | nil => rw [htl] at he; exact he
      | cons d' p' => exact hs _ q htl (by simp) hq
  | case3 => cases h
  | case4 => cases h

theorem IsName.body {name : List Char} (hn : IsName name) :
    ∀ c ∈ ':' :: ':' :: name, isBody c := by
  intro c hc
  simp only [List.mem_cons] at hc
  rcases hc with rfl | rfl | hc
  · decide
  · decide
  · exact isBody_of_isNameChar (hn.2 c hc)

theorem append_name_ne {q n name : List Char} (hq : q ≠ []) (hn : IsName name) :
    q ++ ':' :: ':' :: n ≠ ':' :: ':' :: name := by
  intro h
  have hm : ':' ∈ name := by
    obtain ⟨c, q, rfl⟩ := List.exists_cons_of_ne_nil hq
    have ht : q ++ ':' :: ':' :: n = ':' :: name := (List.cons.inj h).2
    cases q with
    | nil => rw [← (List.cons.inj ht).2]; exact List.mem_cons_self ..
    | cons d q => rw [← (List.cons.inj ht).2]; simp
  have hc := hn.2 _ hm
  revert hc
  decide

theorem Admissible.shortest {cap : Nat} {t : Tag} (ht : t.Admissible cap) (rest : List Char)
    {p q : List Char} (hpq : t.path.toList = p ++ q) (hp : p ≠ []) (hq : q ≠ []) :
    ending? (q ++ (ending t.processor t.raw ++ rest)) = none := by
  rw [Option.eq_none_iff_forall_ne_some]
  rintro ⟨name, raw⟩ he
  obtain ⟨hname, u, hu⟩ := eq_of_ending? he
  have hqb : ∀ c ∈ q, isBody c := fun c hc => ht.path_body c (by simp [hpq, hc])
  cases name with
  | none =>
    obtain ⟨c, q, rfl⟩ := List.exists_cons_of_ne_nil hq
    exact ending_none_ne (hqb c (List.mem_cons_self ..)) hu.symm
  | some name =>
    have hn := hname name rfl
    -- Both sides start with the same longest run of characters of paths.
    have hrun := congrArg (List.takeWhile isBody) hu
    rw [ending_some, ← List.cons_append, ← List.cons_append, List.append_assoc,
      takeWhile_body_append hn.body] at hrun
    cases hm : t.processor with
    | none =>
      rw [hm, takeWhile_body_append hqb] at hrun
      exact ht.unnamed hm ⟨p, name.toList, hp, hn, by rw [hpq, hrun]⟩
    | some n =>
      have hb : ∀ c ∈ q ++ ':' :: ':' :: n.toList, isBody c := by
        intro c hc
        rcases List.mem_append.1 hc with hc | hc
        · exact hqb c hc
        · exact (ht.name n hm).body c hc
      rw [hm, ending_some, ← List.cons_append, ← List.cons_append, List.append_assoc,
        ← List.append_assoc, takeWhile_body_append hb] at hrun
      exact append_name_ne hq hn hrun

theorem at?_eq_some_iff {cap : Nat} {cs : List Char} {t : Tag} :
    at? cap cs = some t ↔ t.Admissible cap ∧ t.print <+: cs := by
  constructor
  · fun_cases at? cap cs with
    | case1 rest =>
      intro h
      obtain ⟨⟨path, name, raw⟩, hb, rfl⟩ := Option.map_eq_some_iff.1 h
      obtain ⟨hne, hbody, hle, tail, rfl, he, hs⟩ := eq_of_body? hb
      obtain ⟨hname, u, rfl⟩ := eq_of_ending? he
      refine ⟨⟨by simpa using hne, by simpa using hbody, by simpa using hle, hname, ?_⟩,
        u, by simp [print]⟩
      rintro rfl ⟨p, n, hp, hn, hpn⟩
      have hnone := hs p (':' :: ':' :: n) (by simpa using hpn) hp (by simp)
      have hsome := ending?_ending (some (String.ofList n)) (by simpa using hn) raw u
      simp only [ending_some, String.toList_ofList, List.cons_append, List.append_assoc]
        at hnone hsome
      rw [hnone] at hsome
      cases hsome
    | case2 => rintro ⟨⟩
  · rintro ⟨ht, rest, rfl⟩
    have he : ending? (ending t.processor t.raw ++ rest) = some (t.processor, t.raw) :=
      ending?_ending t.processor ht.name t.raw rest
    have hb := body?_append ht.path_ne ht.path_body ht.path_le he fun p q => ht.shortest rest
    simp [at?, print, hb]

end Inlay.Tag
