import Inlay.Proofs.Engine.Calls
import Inlay.Proofs.Page.Match
import Inlay.Proofs.Tag.FreeCall
import Inlay.Proofs.World.Report
import Inlay.Proofs.World.Session
import Mathlib.Data.List.Nodup

/-! The registry of a context in use: every registration adds an entry under a key that is new, and
nothing else that is done with the context touches the entries. -/

namespace Inlay

variable {σ : Type} {draw : Nat → String}

namespace KeySource

variable {used : List String} {n : Nat}

theorem nextFrom_of_mem (h : Awaits draw used n) (hn : draw n ∈ used) :
    nextFrom draw used n h = nextFrom draw used (n + 1) (h.next hn) := by
  rw [nextFrom, dif_pos hn]

theorem nextFrom_of_notMem (h : Awaits draw used n) (hn : draw n ∉ used) :
    nextFrom draw used n h = n := by
  rw [nextFrom, dif_neg hn]

end KeySource

structure Registry.Drawn (draw : Nat → String) (r : Registry) : Prop where
  nodup : r.keys.Nodup
  drawn : ∀ key ∈ r.keys, ∃ n, draw n = key

namespace Registry

theorem Drawn.empty : Drawn draw .empty := ⟨List.nodup_nil, nofun⟩

theorem registerNext_fresh (r : Registry) (v : Value) (h : r.Awaits draw) :
    (r.registerNext draw v h).1 ∉ r.keys :=
  KeySource.draw_nextFrom_notMem draw r.keys r.drawn h

theorem entries_registerNext (r : Registry) (v : Value) (h : r.Awaits draw) :
    (r.registerNext draw v h).2.entries = r.entries ++ [((r.registerNext draw v h).1, v)] :=
  Table.insert_of_absent (r.registerNext_fresh v h) v

theorem Drawn.registerNext {r : Registry} (hr : r.Drawn draw) (v : Value) (h : r.Awaits draw) :
    (r.registerNext draw v h).2.Drawn draw := by
  have hk : (r.registerNext draw v h).2.keys = r.keys ++ [(r.registerNext draw v h).1] := by
    rw [keys, entries_registerNext, List.map_append]
    rfl
  constructor
  · rw [hk]
    exact List.concat_eq_append ▸ List.Nodup.concat (r.registerNext_fresh v h) hr.nodup
  · rw [hk]
    intro key hm
    rcases List.mem_append.1 hm with hm | hm
    · exact hr.drawn key hm
    · exact ⟨_, (List.mem_singleton.1 hm).symm⟩

end Registry

@[simp] theorem Context.registry_put (c : Context) (selector name : String) (v : Value) :
    (c.put selector name v).registry = c.registry := by
  rw [put]
  cases Source.ofSelector selector <;> rfl

@[simp] theorem Context.registry_unset (c : Context) (name : String) :
    (c.unset name).2.registry = c.registry := rfl

theorem Engine.registry_render (e : Engine σ) (cap : Nat) (text : String) (w : World σ) :
    (e.render cap text w).2.context.registry = w.context.registry := by
  have hr : e.host.Respects fun v v' => v = v' ∧ v.context.registry = w.context.registry := by
    refine e.host.respects_invariant (fun _ _ hv => hv) (fun c v hv => ?_) fun _ _ hv => hv
    unfold World.change
    split
    · exact hv
    · exact hv
  have hk : ∀ t, (e.resolve t).Keeps
      fun v v' => v = v' ∧ v.context.registry = w.context.registry := by
    refine fun t => resolve_keeps t hr fun _ o => ?_
    unfold Processor.removeEntry
    split
    · exact .modify fun v v' hv => ⟨by rw [hv.1], hv.2⟩
    · exact .pure ()
  exact (Page.render_matches hr.note (fun t => (hk t).matches) cap text ⟨rfl, rfl⟩).2.2

namespace World

inductive Step (draw : Nat → String) : World σ → List (String × Value) → World σ → Prop
  | register (w : World σ) (v : Value) (h : w.context.registry.Awaits draw) :
    Step draw w [((w.context.registerNext draw v h).1, v)]
      { w with context := (w.context.registerNext draw v h).2 }
  | render (w : World σ) (e : Engine σ) (cap : Nat) (text : String) :
    Step draw w [] (e.render cap text w).2
  | put (w : World σ) (selector name : String) (v : Value) :
    Step draw w [] { w with context := w.context.put selector name v }
  | unset (w : World σ) (name : String) :
    Step draw w [] { w with context := (w.context.unset name).2 }

inductive Run (draw : Nat → String) : World σ → List (String × Value) → World σ → Prop
  | nil (w : World σ) : Run draw w [] w
  | cons {w w' w'' : World σ} {given later : List (String × Value)} :
    Step draw w given w' → Run draw w' later w'' → Run draw w (given ++ later) w''

variable {w w' : World σ} {given : List (String × Value)}

theorem Step.registry (h : Step draw w given w') (hd : w.context.registry.Drawn draw) :
    w'.context.registry.Drawn draw ∧
      w'.context.registry.entries = w.context.registry.entries ++ given := by
  cases h with
  | register v h => exact ⟨hd.registerNext v h, w.context.registry.entries_registerNext v h⟩
  | render e cap text => rw [e.registry_render, List.append_nil]; exact ⟨hd, rfl⟩
  | put selector name v => simpa using hd
  | unset name => simpa using hd

theorem Run.registry (h : Run draw w given w') (hd : w.context.registry.Drawn draw) :
    w'.context.registry.Drawn draw ∧
      w'.context.registry.entries = w.context.registry.entries ++ given := by
  induction h with
  | nil w => exact ⟨hd, (List.append_nil _).symm⟩
  | cons hs _ ih =>
    obtain ⟨hd', he⟩ := hs.registry hd
    obtain ⟨hd'', he'⟩ := ih hd'
    exact ⟨hd'', by rw [he', he, List.append_assoc]⟩

end World

/-! Reading an entry back. -/

structure Registry.IsKey (key : String) : Prop where
  length : key.length = KeySource.keyLength
  hex : ∀ c ∈ key.toList, c ∈ "0123456789abcdef".toList

def Registry.tag (key : String) : Tag := ⟨"registry:" ++ key, none, true⟩

namespace Registry.IsKey

variable {key : String} (hk : IsKey key)

include hk

theorem isWord {c : Char} (hc : c ∈ key.toList) : Accessor.isWord c = true := by
  have ha : "0123456789abcdef".toList.all Accessor.isWord = true := by decide
  exact List.all_eq_true.1 ha c (hk.hex c hc)

theorem path_body : ∀ c ∈ (tag key).path.toList, Tag.isBody c = true := by
  have ha : "registry:".toList.all Tag.isBody = true := by decide
  intro c hc
  rw [tag, String.toList_append, List.mem_append] at hc
  rcases hc with hc | hc
  · exact List.all_eq_true.1 ha c hc
  · exact Tag.isBody_of_isWord (hk.isWord hc)

theorem admissible {cap : Nat} (hc : 73 ≤ cap) : (tag key).Admissible cap where
  path_ne := by simp [tag]
  path_body := hk.path_body
  path_le := by
    have hl : key.toList.length = 64 := hk.length
    simp only [tag, String.toList_append, List.length_append, hl]
    exact hc
  name := nofun
  unnamed := by
    rintro - ⟨path, name, -, -, hp⟩
    have hp : "registry:".toList ++ key.toList = path ++ ':' :: ':' :: name := by
      rw [← hp, tag, String.toList_append]
    have hn : ':' ∉ key.toList := fun hm => absurd (hk.isWord hm) (by decide)
    have hc := congrArg (List.count ':') hp
    rw [List.count_append, List.count_eq_zero_of_not_mem hn, List.count_append,
      List.count_cons_self, List.count_cons_self] at hc
    have h1 : "registry:".toList.count ':' = 1 := by decide
    omega

theorem scan {cap : Nat} (hc : 73 ≤ cap) :
    Piece.scan cap ("<registry:" ++ key ++ "~/>").toList = [.tag (tag key)] := by
  have ht : ("<registry:" ++ key ++ "~/>").toList = (tag key).print ++ [] := by
    simp [tag, Tag.print, Tag.ending]
  rw [ht, Piece.scan_print_append (hk.admissible hc)]
  rfl

theorem split_path (cap : Int) :
    Path.split (some ':') (some cap) (tag key).path = .ok ["registry", key] := by
  have hw : ∀ c ∈ key.toList, c ≠ '(' ∧ c ≠ ')' ∧ some ':' ≠ some c :=
    fun c hc => Accessor.plain_of_isWord (hk.isWord hc)
  have ha : "registry".toList.all Accessor.isWord = true := by decide
  have hr : ∀ c ∈ "registry".toList, c ≠ '(' ∧ c ≠ ')' ∧ some ':' ≠ some c :=
    fun c hc => Accessor.plain_of_isWord (List.all_eq_true.1 ha c hc)
  have hp : (tag key).path.toList = "registry".toList ++ ':' :: key.toList := by
    simp [tag]
  have hcut : Path.cut (some ':') 0 (tag key).path.toList = ["registry".toList, key.toList] := by
    have hkey : Path.cut (some ':') 0 key.toList = [key.toList] := by
      rw [← List.append_nil key.toList, Path.cut_append_of_plain hw, Path.cut, Path.foldr_extend]
    rw [hp, Path.cut_append_of_plain hr, Path.cut, if_pos ⟨rfl, rfl, by decide, by decide⟩, hkey,
      Path.foldr_extend, List.append_nil]
  have ho : Path.exceeds cap 0 (tag key).path.toList = false := by
    refine Path.exceeds_of_plain (fun c hc => ?_) cap 0
    rw [hp, List.mem_append, List.mem_cons] at hc
    rcases hc with hc | rfl | hc
    · exact (hr c hc).1
    · decide
    · exact (hw c hc).1
  have hl : ["registry".toList, key.toList].getLast? ≠ some [] := by
    have hl : key.toList.length = 64 := hk.length
    intro he
    have he : key.toList = [] := Option.some.inj he
    rw [he] at hl
    cases hl
  rw [Path.split, hcut, Path.dropFinalEmpty, if_neg hl]
  simp [ho]

theorem ofSegment : Accessor.ofSegment key = .key key :=
  Accessor.ofSegment_of_notMem fun hp => absurd (hk.isWord hp) (by decide)

end Registry.IsKey

namespace Engine

open Registry (IsKey tag)

variable {e : Engine σ} {w : World σ} {key : String} {v : Value}

theorem locate_registry (hk : IsKey key) (hn : w.context.registry.keys.Nodup)
    (hm : (key, v) ∈ w.context.registry.entries) (hv : v ≠ .missing) :
    e.locate "registry" [key] w = .ok (.ok (w.current v)) w := by
  have hs : w.select "registry" = _ := w.current_ofTable w.context.registry.entries
  have hg := Table.get?_map w.current w.context.registry.entries key
  rw [Table.get?_of_mem hn hm, Option.map_some] at hg
  have hl : (w.select "registry").lookup e.host key = Act.ofExcept (.ok (some (w.current v))) := by
    rw [hs, ← Value.entryAt?_of_get? hg (w.current_ne_missing hv)]
    rfl
  have hw : e.locate "registry" [key] w =
      Walk.walk e.host (w.select "registry") [Accessor.ofSegment key] w := rfl
  rw [hw, hk.ofSegment, Walk.walk_one, Walk.step, Walk.lookupKey, hl]
  rfl

theorem finish_raw {t : Tag} (hr : t.raw = true) (hp : t.processor = none) (selector : String)
    (segments : List String) (v : Value) :
    e.finish t selector segments v = Outcome.done <$> v.render e.host := by
  rw [finish_eq, unknown?, hp, Option.filter_none, write, hp, hr]
  change (do return Outcome.done (← v.format e.host false)) = _
  rw [Value.format]
  simp

theorem render_registry (hk : IsKey key) (hn : w.context.registry.keys.Nodup)
    (hm : (key, v) ∈ w.context.registry.entries) (hv : v ≠ .missing) {cap : Nat} (hc : 73 ≤ cap)
    {s : String} {w' : World σ} (hs : (w.current v).render e.host w = .ok s w') :
    e.render cap ("<registry:" ++ key ++ "~/>") w = (.done s, w') := by
  have hr : e.resolve (tag key) w = .ok (.done s) w' := by
    rw [resolve, hk.split_path]
    change (e.locate "registry" [key] >>= _) w = _
    rw [Act.bind_apply, locate_registry hk hn hm hv]
    change e.finish (tag key) "registry" [key] (w.current v) w = _
    rw [finish_raw rfl rfl, map_eq_pure_bind, Act.bind_apply, hs]
    rfl
  rw [render, Page.render_of_scan _ (hk.scan hc), Page.replace, hr]
  simp [Page.Rendering.outcome, Page.failure?, Outcome.done]

end Engine

namespace World

/-- The keys that a context gives out are never given out again. The registry has the entries of all
of them and no others, and a raw tag that mentions one is replaced by what its value is rendered
as. -/
theorem run_registers (hk : ∀ n, Registry.IsKey (draw n)) {w₀ w w' : World σ}
    (h₀ : w₀.context.registry = .empty) {given later : List (String × Value)}
    (hg : Run draw w₀ given w) (hl : Run draw w later w') :
    ((given ++ later).map (·.1)).Nodup ∧
      w.context.registry.entries = given ∧ w'.context.registry.entries = given ++ later ∧
      ∀ key v, (key, v) ∈ given → v ≠ .missing →
        ∀ (e : Engine σ) (cap : Nat) (s : String) (w'' : World σ), 73 ≤ cap →
          (w'.current v).render e.host w' = .ok s w'' →
          e.render cap ("<registry:" ++ key ++ "~/>") w' = (.done s, w'') := by
  have hd₀ : w₀.context.registry.Drawn draw := h₀ ▸ .empty
  obtain ⟨hd, he⟩ := hg.registry hd₀
  obtain ⟨hd', he'⟩ := hl.registry hd
  rw [h₀] at he
  have he : w.context.registry.entries = given := he
  rw [he] at he'
  refine ⟨he' ▸ hd'.nodup, he, he', fun key v hm hv e cap s w'' hc hs => ?_⟩
  have hm' : (key, v) ∈ w'.context.registry.entries := he' ▸ List.mem_append_left _ hm
  obtain ⟨n, rfl⟩ := hd'.drawn key (List.mem_map_of_mem hm')
  exact Engine.render_registry (hk n) hd'.nodup hm' hv hc hs

/-- The second draw repeats the first, so the second registration takes the third. -/
theorem run_registers_repeated_draw :
    let key (c : Char) := String.ofList (List.replicate 64 c)
    let draw (n : Nat) := if n < 2 then key '0' else key 'a'
    let w₀ : World Unit := .start .empty () (.empty false)
    ∃ w w', Run draw w₀ [(key '0', .text "<b>")] w ∧ Run draw w [(key 'a', .null)] w' ∧
      w'.context.registry.entries = [(key '0', .text "<b>"), (key 'a', .null)] ∧
      ∀ e : Engine Unit,
        e.render 73 ("<registry:" ++ key '0' ++ "~/>") w' = (.done "<b>", w') := by
  intro key draw w₀
  have hkey : ∀ c ∈ "0123456789abcdef".toList, Registry.IsKey (key c) := fun c hc =>
    ⟨by simp [key, KeySource.keyLength], fun d hd => by
      rw [String.toList_ofList] at hd
      exact List.eq_of_mem_replicate hd ▸ hc⟩
  have hk : ∀ n, Registry.IsKey (draw n) := by
    intro n
    by_cases hn : n < 2
    · have hd : draw n = key '0' := if_pos hn
      exact hd ▸ hkey '0' (by decide)
    · have hd : draw n = key 'a' := if_neg hn
      exact hd ▸ hkey 'a' (by decide)
  let c₁ := { Context.empty with registry := ⟨[(key '0', .text "<b>")], 1⟩ }
  let w₁ : World Unit := { w₀ with context := c₁ }
  have hr₁ : Run draw w₀ [(key '0', .text "<b>")] w₁ := by
    have h : w₀.context.registry.Awaits draw := ⟨0, Nat.le_refl 0, List.not_mem_nil⟩
    have he : w₀.context.registerNext draw (.text "<b>") h = (key '0', c₁) := by
      rw [Context.registerNext, Registry.registerNext,
        KeySource.nextFrom_of_notMem h List.not_mem_nil]
      rfl
    have hs := Step.register w₀ (.text "<b>") h
    rw [he] at hs
    exact .cons hs (.nil _)
  have hne : key 'a' ∉ w₁.context.registry.keys := by decide
  have h : w₁.context.registry.Awaits draw := ⟨2, by decide, hne⟩
  let w₂ : World Unit := { w₁ with context := (w₁.context.registerNext draw .null h).2 }
  have hr₂ : Run draw w₁ [(key 'a', .null)] w₂ := by
    have he : (w₁.context.registerNext draw .null h).1 = key 'a' := by
      have hm : draw 1 ∈ w₁.context.registry.keys := List.mem_cons_self
      have hn : draw 2 ∉ w₁.context.registry.keys := hne
      rw [Context.registerNext, Registry.registerNext, KeySource.nextFrom_of_mem h hm,
        KeySource.nextFrom_of_notMem _ hn]
      rfl
    have hs := Step.register w₁ .null h
    rw [he] at hs
    exact .cons hs (.nil _)
  obtain ⟨-, -, he, hread⟩ := run_registers hk rfl hr₁ hr₂
  exact ⟨w₁, w₂, hr₁, hr₂, he, fun e =>
    hread (key '0') (.text "<b>") List.mem_cons_self nofun e 73 "<b>" w₂ (Nat.le_refl 73) rfl⟩

end World

end Inlay
