import Inlay.Document
import Inlay.Proofs.Json.Decoding
import Inlay.Proofs.Json.Lines
import Inlay.Proofs.Text.Utf8

/-! Which files are loaded as contexts, what is copied from them, and what is said of the others. -/

namespace Inlay

/-! Faults of files. -/

def FileFault.IsSystem (f : FileFault) : Prop :=
  f.kind ∈ ["OSError", "FileNotFoundError", "IsADirectoryError", "NotADirectoryError"]

def DocumentFault.IsValue (f : DocumentFault) : Prop :=
  f.kind ∈ ["ValueError", "UnicodeDecodeError"]

namespace Directory

theorem isSystem_of_enter {name : String} {place : Place} {part : List Char} {f : FileFault}
    (h : enter name place part = .error f) : f.IsSystem := by
  unfold enter at h
  repeat' split at h
  all_goals first
    | (cases h; simp [FileFault.IsSystem, FileFault.kind])
    | cases h

theorem isSystem_of_foldlM_enter {name : String} {place : Place} {parts : List (List Char)}
    {f : FileFault} (h : parts.foldlM (enter name) place = .error f) : f.IsSystem := by
  induction parts generalizing place with
  | nil => cases h
  | cons part parts ih =>
    rw [List.foldlM_cons] at h
    cases he : enter name place part with
    | error g =>
      rw [he] at h
      cases h
      exact isSystem_of_enter he
    | ok next =>
      rw [he] at h
      exact ih h

theorem isSystem_of_read {d : Directory} {name : String} {f : FileFault}
    (h : d.read name = .error f) :
    f.IsSystem ∨ f = .nullCharacter ∧ Char.ofNat 0 ∈ name.toList := by
  unfold read at h
  split at h
  · next hn =>
    cases h
    exact .inr ⟨rfl, List.contains_iff_mem.1 hn⟩
  · refine .inl ?_
    split at h
    · cases h
      simp [FileFault.IsSystem, FileFault.kind]
    · dsimp only at h
      cases hp : (FileName.parts name).foldlM (enter name)
        (.within (if (FileName.root name).isEmpty then d else root) []) with
      | error g =>
        rw [hp] at h
        cases h
        exact isSystem_of_foldlM_enter hp
      | ok place =>
        rw [hp] at h
        cases place with
        | above =>
          cases h
          simp [FileFault.IsSystem, FileFault.kind]
        | within d parts =>
          simp only [bind, Except.bind] at h
          split at h <;> cases h
          simp [FileFault.IsSystem, FileFault.kind]

end Directory

namespace Document

open Json

def Holds (d : Directory) (name : String) (j : Json) : Prop :=
  ∃ text, d.read name = .ok (text.flatMap String.utf8EncodeChar) ∧ IsDocument text j

def Offends (members : List (String × Json)) (name : String) : Prop :=
  ∃ j, last? members name = some j ∧ ∀ entries, j ≠ .object entries

inductive SectionOf (members : List (String × Json)) (name : String) : Table Value → Prop
  | absent : last? members name = none → SectionOf members name []
  | decoded {entries : List (String × Json)} {t : Table Value} :
    last? members name = some (.object entries) → Decodes (.object entries) (.ofTable t) →
    SectionOf members name t

structure Copies (members : List (String × Json)) (c : Context) : Prop where
  query : SectionOf members "get" c.stores.query
  form : SectionOf members "post" c.stores.form
  cookies : SectionOf members "cookie" c.stores.cookies
  server : SectionOf members "server" c.stores.server
  session : SectionOf members "session" c.stores.session
  globals : SectionOf members "globals" c.globals
  registry : c.registry = .empty
  functions : c.functions = []

/-- What a document lacks: to be an object, or else an object for each of the sections that offend,
in their order. -/
inductive Lacks : Json → List Mismatch → Prop
  | notObject {j : Json} : (∀ members, j ≠ .object members) → Lacks j [.notObject]
  | sections {members : List (String × Json)} {names : List String} :
    names.Sublist ["get", "post", "cookie", "server", "session", "globals"] →
    (∀ name, name ∈ names ↔ name ∈ Document.sections ∧ Offends members name) →
    Lacks (.object members) (names.map .sectionNotObject)

section

variable {members : List (String × Json)} {name : String}

theorem table?_ofList : table? (Table.ofList members) name =
    match last? members name with
    | none => some []
    | some (.object entries) => some (Table.ofList (Value.ofJsonMembers entries))
    | some _ => none := by
  rw [table?, Table.get?_ofList]
  rfl

theorem table?_eq_some_iff {t : Table Value} :
    table? (Table.ofList members) name = some t ↔ SectionOf members name t := by
  rw [table?_ofList]
  constructor
  · intro h
    split at h
    · next hl =>
      cases h
      exact .absent hl
    · next entries hl =>
      cases h
      exact .decoded hl (decodes_object_iff.2 rfl)
    · cases h
  · intro h
    cases h with
    | absent hl => rw [hl]
    | decoded hl ht => rw [hl, decodes_object_iff.1 ht]

theorem table?_eq_none_iff : table? (Table.ofList members) name = none ↔ Offends members name := by
  rw [table?_ofList, Offends]
  split
  · next hl => simp [hl]
  · next entries hl => simp [hl]
  · next j hn hl => simpa [hl] using hn

theorem sectionOf_spec (h : ¬Offends members name) :
    SectionOf members name (sectionOf (Table.ofList members) name) := by
  obtain ⟨t, ht⟩ := Option.ne_none_iff_exists'.1 (mt table?_eq_none_iff.1 h)
  rw [sectionOf, ht]
  exact table?_eq_some_iff.1 ht

theorem lacks_mismatches : Lacks (.object members) (mismatches (Table.ofList members)) :=
  .sections List.filter_sublist fun name => by
    rw [List.mem_filter, Option.isNone_iff_eq_none, table?_eq_none_iff]

theorem mismatches_eq_nil_iff : mismatches (Table.ofList members) = [] ↔
    ∀ name ∈ sections, ¬Offends members name := by
  simp [mismatches, List.filter_eq_nil_iff, Option.isNone_iff_eq_none, table?_eq_none_iff]

theorem SectionOf.not_offends {t : Table Value} (h : SectionOf members name t) :
    ¬Offends members name := by
  rw [← table?_eq_none_iff, table?_eq_some_iff.2 h]
  simp

theorem SectionOf.sectionOf_eq {t : Table Value} (h : SectionOf members name t) :
    sectionOf (Table.ofList members) name = t := by
  rw [sectionOf, table?_eq_some_iff.2 h, Option.getD_some]

theorem Copies.not_offends {c : Context} (h : Copies members c) :
    ∀ name ∈ sections, ¬Offends members name := by
  simp only [sections, List.forall_mem_cons, List.not_mem_nil, false_implies, implies_true,
    and_true]
  exact ⟨h.query.not_offends, h.form.not_offends, h.cookies.not_offends, h.server.not_offends,
    h.session.not_offends, h.globals.not_offends⟩

theorem context?_eq_ok_iff {c : Context} :
    context? (.object members) = .ok c ↔ Copies members c := by
  constructor
  · intro h
    rw [context?] at h
    split at h
    · next hl =>
      cases h
      have hs := mismatches_eq_nil_iff.1 (List.isEmpty_iff.1 hl)
      exact ⟨sectionOf_spec (hs _ (by decide)), sectionOf_spec (hs _ (by decide)),
        sectionOf_spec (hs _ (by decide)), sectionOf_spec (hs _ (by decide)),
        sectionOf_spec (hs _ (by decide)), sectionOf_spec (hs _ (by decide)), rfl, rfl⟩
    · cases h
  · intro h
    have hl := mismatches_eq_nil_iff.2 h.not_offends
    rw [context?, if_pos (List.isEmpty_iff.2 hl), h.query.sectionOf_eq, h.form.sectionOf_eq,
      h.cookies.sectionOf_eq, h.server.sectionOf_eq, h.session.sectionOf_eq, h.globals.sectionOf_eq,
      ← h.registry, ← h.functions]

theorem exists_copies_iff :
    (∃ c, Copies members c) ↔ ∀ name ∈ sections, ¬Offends members name := by
  refine ⟨fun ⟨c, h⟩ => h.not_offends, fun h => ?_⟩
  have hl := mismatches_eq_nil_iff.2 h
  refine ⟨_, context?_eq_ok_iff.1 (if_pos (List.isEmpty_iff.2 hl))⟩

theorem lacks_of_context? {j : Json} {lacks : List Mismatch} (h : context? j = .error lacks) :
    Lacks j lacks := by
  cases j with
  | object members =>
    rw [context?] at h
    split at h
    · cases h
    · cases h
      exact lacks_mismatches
  | _ =>
    cases h
    exact .notObject nofun

end

section

variable {d : Directory} {name : String}

theorem mapError_eq_ok_iff {ε ε' α : Type} {g : ε → ε'} {e : Except ε α} {a : α} :
    e.mapError g = .ok a ↔ e = .ok a := by
  cases e <;> simp [Except.mapError]

theorem load_of_holds {j : Json} (h : Holds d name j) :
    load d.read name = (context? j).mapError (.mismatched name) := by
  obtain ⟨text, hr, hj⟩ := h
  have hd : Text.Utf8.decode (text.flatMap String.utf8EncodeChar) = .ok text :=
    Text.Utf8.decode_eq_ok_iff.2 rfl
  have ht : ofText (Text.unifyLineEnds text) = .ok j :=
    ofText_eq_ok_iff.2 (isDocument_unifyLineEnds.2 hj)
  simp [load, hr, readText, hd, parse, ht, Except.mapError, bind, Except.bind]

theorem load_of_not_holds {octets : Octets} (hr : d.read name = .ok octets)
    (h : ∀ j, ¬Holds d name j) : ∃ f, load d.read name = .error f ∧ f.IsValue := by
  cases hd : Text.Utf8.decode octets with
  | error f =>
    refine ⟨.file (.undecodable f), ?_, by simp [DocumentFault.IsValue, DocumentFault.kind,
      FileFault.kind]⟩
    simp [load, hr, readText, hd, Except.mapError, bind, Except.bind]
  | ok text =>
    cases hj : ofText (Text.unifyLineEnds text) with
    | ok j =>
      refine absurd ⟨text, ?_, isDocument_unifyLineEnds.1 (ofText_eq_ok_iff.1 hj)⟩ (h j)
      rw [hr, Text.Utf8.decode_eq_ok_iff.1 hd]
    | error f =>
      have hl : load d.read name = parse name (String.ofList (Text.unifyLineEnds text)) := by
        simp [load, hr, readText, hd, Except.mapError, bind, Except.bind]
      rw [hl, parse, String.toList_ofList, hj]
      split
      · exact ⟨_, rfl, by simp [DocumentFault.IsValue, DocumentFault.kind]⟩
      · exact ⟨_, rfl, by simp [DocumentFault.IsValue, DocumentFault.kind]⟩
      · next he => cases he

theorem load_unreadable {f : FileFault} (h : d.read name = .error f) :
    load d.read name = .error (.file f) := by
  simp [load, h, Except.mapError, bind, Except.bind]

theorem holds_of_load {c : Context} (h : load d.read name = .ok c) :
    ∃ members, Holds d name (.object members) ∧ Copies members c := by
  cases hr : d.read name with
  | error f =>
    rw [load_unreadable hr] at h
    cases h
  | ok octets =>
    by_cases hj : ∃ j, Holds d name j
    · obtain ⟨j, hj⟩ := hj
      rw [load_of_holds hj, mapError_eq_ok_iff] at h
      cases j with
      | object members => exact ⟨members, hj, context?_eq_ok_iff.1 h⟩
      | _ => cases h
    · obtain ⟨f, hf, -⟩ := load_of_not_holds hr (not_exists.1 hj)
      rw [h] at hf
      cases hf

theorem lacks_of_load {j : Json} {f : DocumentFault} (h : Holds d name j)
    (hf : load d.read name = .error f) : ∃ lacks, f = .mismatched name lacks ∧ Lacks j lacks := by
  rw [load_of_holds h] at hf
  cases hc : context? j with
  | ok c =>
    rw [hc] at hf
    cases hf
  | error lacks =>
    rw [hc] at hf
    exact ⟨lacks, (Except.error.inj hf).symm, lacks_of_context? hc⟩

theorem isValue_of_load {octets : Octets} {f : DocumentFault} (hr : d.read name = .ok octets)
    (hf : load d.read name = .error f) : f.IsValue := by
  by_cases hj : ∃ j, Holds d name j
  · obtain ⟨j, hj⟩ := hj
    obtain ⟨lacks, rfl, -⟩ := lacks_of_load hj hf
    simp [DocumentFault.IsValue, DocumentFault.kind]
  · obtain ⟨g, hg, hv⟩ := load_of_not_holds hr (not_exists.1 hj)
    rw [hf] at hg
    exact Except.error.inj hg ▸ hv

/-- A context is loaded exactly from a file that holds an object, all of whose sections are objects,
and is copied from these. Any other file is refused: by an error of the system if it is not read,
else by an error of a value, which of a document tells all that it lacks. -/
theorem load_exact (d : Directory) (name : String) :
    ((∃ c, load d.read name = .ok c) ↔
      ∃ members, Holds d name (.object members) ∧ ∀ part ∈ sections, ¬Offends members part) ∧
    (∀ members, Holds d name (.object members) →
      ∀ c, load d.read name = .ok c ↔ Copies members c) ∧
    ∀ f, load d.read name = .error f →
      (∀ g, d.read name = .error g →
        f = .file g ∧ (g.IsSystem ∨ Char.ofNat 0 ∈ name.toList ∧ f.IsValue)) ∧
      (∀ octets, d.read name = .ok octets → f.IsValue) ∧
      ∀ j, Holds d name j → ∃ lacks, f = .mismatched name lacks ∧ Lacks j lacks := by
  have hcopies : ∀ members, Holds d name (.object members) →
      ∀ c, load d.read name = .ok c ↔ Copies members c := fun members h c => by
    rw [load_of_holds h, mapError_eq_ok_iff, context?_eq_ok_iff]
  refine ⟨⟨?_, ?_⟩, hcopies, fun f hf => ⟨fun g hg => ?_, fun octets hr => isValue_of_load hr hf,
    fun j hj => lacks_of_load hj hf⟩⟩
  · rintro ⟨c, h⟩
    obtain ⟨members, hm, hc⟩ := holds_of_load h
    exact ⟨members, hm, hc.not_offends⟩
  · rintro ⟨members, hm, hs⟩
    obtain ⟨c, hc⟩ := exists_copies_iff.2 hs
    exact ⟨c, (hcopies members hm c).2 hc⟩
  · rw [load_unreadable hg] at hf
    obtain rfl : f = .file g := (Except.error.inj hf).symm
    refine ⟨rfl, ?_⟩
    rcases Directory.isSystem_of_read hg with hs | ⟨rfl, hn⟩
    · exact .inl hs
    · exact .inr ⟨hn, by simp [DocumentFault.IsValue, DocumentFault.kind, FileFault.kind]⟩

end

end Document

end Inlay
