import Inlay.Program
import Inlay.Proofs.Engine.Report
import Inlay.Proofs.Page.Seam
import Inlay.Proofs.Text.Line
import Inlay.Proofs.Text.Utf8

/-! Runs of the program: what stops one before it writes anything, and what it writes otherwise. -/

namespace Inlay

open Tag (OccursAt)

theorem readText_eq_ok_iff {octets : Octets} {s : String} :
    readText octets = .ok s ↔ ∃ text : List Char,
      octets = text.flatMap String.utf8EncodeChar ∧
        s = String.ofList (Text.unifyLineEnds text) := by
  simp only [← Text.Utf8.decode_eq_ok_iff]
  rw [readText]
  cases Text.Utf8.decode octets with
  | ok text => simp [eq_comm]
  | error f => simp

theorem exists_readText_eq_error {octets : Octets} :
    (∃ f, readText octets = .error f) ↔
      ∀ text : List Char, octets ≠ text.flatMap String.utf8EncodeChar := by
  simp only [ne_eq, ← Text.Utf8.decode_eq_ok_iff]
  rw [readText]
  cases Text.Utf8.decode octets with
  | ok text => simp
  | error f => simp

namespace Program

variable {file : String → Except FileFault Octets} {stdin : List Char}
  {input context : Option String}

theorem given_eq_some_iff {name : String} :
    given input = some name ↔ input = some name ∧ name ≠ "" := by
  simp [given, Option.filter_eq_some_iff]

theorem given_eq_none_iff : given input = none ↔ ∀ name, input = some name → name = "" := by
  simp [given, Option.filter_eq_none_iff]

/-! What a run reads. -/

def ContextFails (file : String → Except FileFault Octets) (context : Option String) : Prop :=
  ∃ name, context = some name ∧ name ≠ "" ∧
    ∃ f, Document.load file (FileName.normal name) = .error f

def InputFails (file : String → Except FileFault Octets) (input : Option String) : Prop :=
  ∃ name, input = some name ∧ name ≠ "" ∧
    ((∃ f, file (FileName.normal name) = .error f) ∨
      ∃ octets, file (FileName.normal name) = .ok octets ∧
        ∀ text : List Char, octets ≠ text.flatMap String.utf8EncodeChar)

inductive HasContext (file : String → Except FileFault Octets) (context : Option String) :
    Context → Prop
  | unnamed : (∀ name, context = some name → name = "") → HasContext file context .empty
  | loaded {name : String} {c : Context} : context = some name → name ≠ "" →
    Document.load file (FileName.normal name) = .ok c → HasContext file context c

inductive HasText (file : String → Except FileFault Octets) (stdin : List Char)
    (input : Option String) : List Char → Prop
  | unnamed : (∀ name, input = some name → name = "") →
    HasText file stdin input (Text.unifyLineEnds stdin)
  | loaded {name : String} {text : List Char} : input = some name → name ≠ "" →
    file (FileName.normal name) = .ok (text.flatMap String.utf8EncodeChar) →
    HasText file stdin input (Text.unifyLineEnds text)

theorem contextOf_eq_ok_iff {sources : Sources} {c : Context} :
    contextOf sources context = .ok c ↔ HasContext sources.file context c := by
  rw [contextOf]
  cases hg : given context with
  | none =>
    rw [given_eq_none_iff] at hg
    constructor
    · rintro ⟨⟩
      exact .unnamed hg
    · rintro (_ | ⟨hc, hne, -⟩)
      · rfl
      · exact absurd (hg _ hc) hne
  | some name =>
    obtain ⟨rfl, hne⟩ := given_eq_some_iff.1 hg
    constructor
    · exact .loaded rfl hne
    · rintro (hc | ⟨⟨⟩, -, hl⟩)
      · exact absurd (hc name rfl) hne
      · exact hl

theorem exists_contextOf_eq_error {sources : Sources} :
    (∃ f, contextOf sources context = .error f) ↔ ContextFails sources.file context := by
  rw [contextOf]
  cases hg : given context with
  | none =>
    rw [given_eq_none_iff] at hg
    constructor
    · rintro ⟨f, ⟨⟩⟩
    · rintro ⟨name, hc, hne, -⟩
      exact absurd (hg name hc) hne
  | some name =>
    obtain ⟨rfl, hne⟩ := given_eq_some_iff.1 hg
    constructor
    · exact fun h => ⟨name, rfl, hne, h⟩
    · rintro ⟨_, ⟨⟩, -, h⟩
      exact h

def Sources.ofText (file : String → Except FileFault Octets) (stdin : List Char) : Sources :=
  ⟨file, stdin.flatMap String.utf8EncodeChar⟩

theorem readText_encoded (text : List Char) :
    readText (text.flatMap String.utf8EncodeChar) = .ok (String.ofList (Text.unifyLineEnds text)) :=
  readText_eq_ok_iff.2 ⟨text, rfl, rfl⟩

theorem pageOf_eq_ok_iff {s : String} :
    pageOf (.ofText file stdin) input = .ok s ↔
      ∃ text, HasText file stdin input text ∧ s = String.ofList text := by
  rw [pageOf]
  cases hg : given input with
  | none =>
    rw [given_eq_none_iff] at hg
    dsimp only
    rw [Sources.ofText, readText_encoded]
    constructor
    · rintro ⟨⟩
      exact ⟨_, .unnamed hg, rfl⟩
    · rintro ⟨_, _ | ⟨hi, hne, -⟩, rfl⟩
      · rfl
      · exact absurd (hg _ hi) hne
  | some name =>
    obtain ⟨rfl, hne⟩ := given_eq_some_iff.1 hg
    constructor
    · intro h
      obtain ⟨octets, hf, hr⟩ := Except.of_bind h
      obtain ⟨text, rfl, rfl⟩ := readText_eq_ok_iff.1 hr
      exact ⟨_, .loaded rfl hne hf, rfl⟩
    · rintro ⟨_, hi | ⟨⟨⟩, -, hf⟩, rfl⟩
      · exact absurd (hi name rfl) hne
      · simp only [Sources.ofText, hf]
        exact readText_encoded _

theorem exists_pageOf_eq_error :
    (∃ f, pageOf (.ofText file stdin) input = .error f) ↔ InputFails file input := by
  rw [pageOf]
  cases hg : given input with
  | none =>
    rw [given_eq_none_iff] at hg
    dsimp only
    rw [Sources.ofText, readText_encoded]
    constructor
    · rintro ⟨f, ⟨⟩⟩
    · rintro ⟨name, hi, hne, -⟩
      exact absurd (hg name hi) hne
  | some name =>
    obtain ⟨rfl, hne⟩ := given_eq_some_iff.1 hg
    have hnamed : InputFails file (some name) ↔
        (∃ f, file (FileName.normal name) = .error f) ∨
          ∃ octets, file (FileName.normal name) = .ok octets ∧ ∃ f, readText octets = .error f := by
      simp only [exists_readText_eq_error]
      constructor
      · rintro ⟨_, ⟨⟩, -, h⟩
        exact h
      · exact fun h => ⟨name, rfl, hne, h⟩
    rw [hnamed]
    simp only [Sources.ofText]
    cases hf : file (FileName.normal name) with
    | error f => exact ⟨fun _ => .inl ⟨f, rfl⟩, fun _ => ⟨f, rfl⟩⟩
    | ok octets =>
      constructor
      · exact fun h => .inr ⟨octets, rfl, h⟩
      · rintro (⟨f, ⟨⟩⟩ | ⟨_, ⟨⟩, h⟩)
        exact h

theorem setup_eq_ok_iff {c : Context} {s : String} :
    setup (.ofText file stdin) input context = .ok (c, s) ↔
      HasContext file context c ∧
        ∃ text, HasText file stdin input text ∧ s = String.ofList text := by
  have hcontext : contextOf (.ofText file stdin) context = .ok c ↔ HasContext file context c :=
    contextOf_eq_ok_iff
  rw [← hcontext, ← pageOf_eq_ok_iff, setup]
  cases contextOf (.ofText file stdin) context with
  | error f => exact ⟨nofun, nofun⟩
  | ok c' =>
    cases pageOf (.ofText file stdin) input with
    | error f => exact ⟨nofun, nofun⟩
    | ok s' =>
      constructor
      · rintro ⟨⟩
        exact ⟨rfl, rfl⟩
      · rintro ⟨⟨⟩, ⟨⟩⟩
        rfl

theorem exists_setup_eq_error :
    (∃ f, setup (.ofText file stdin) input context = .error f) ↔
      ContextFails file context ∨ InputFails file input := by
  have hcontext : (∃ f, contextOf (.ofText file stdin) context = .error f) ↔
      ContextFails file context := exists_contextOf_eq_error
  have hpage : (∃ f, pageOf (.ofText file stdin) input = .error f) ↔ InputFails file input :=
    exists_pageOf_eq_error
  rw [← hcontext, ← hpage, setup]
  cases contextOf (.ofText file stdin) context with
  | error f => exact ⟨fun _ => .inl ⟨f, rfl⟩, fun _ => ⟨f, rfl⟩⟩
  | ok c =>
    cases pageOf (.ofText file stdin) input with
    | error f => exact ⟨fun _ => .inr ⟨f, rfl⟩, fun _ => ⟨.file f, rfl⟩⟩
    | ok s =>
      constructor
      · rintro ⟨f, ⟨⟩⟩
      · rintro (⟨f, ⟨⟩⟩ | ⟨f, ⟨⟩⟩)

/-! What a run writes. -/

theorem answer_of_error {settings : Settings} {sources : Sources} {f : DocumentFault}
    (h : setup sources input context = .error f) :
    answer settings sources input context = failed f (.empty settings.quiet) := by
  rw [answer, h]

theorem answer_of_ok {settings : Settings} {cap : Nat}
    (hcap : Page.cap? settings.maxTagLength = .ok cap) {sources : Sources} {c : Context}
    {s : String} (h : setup sources input context = .ok (c, s)) :
    answer settings sources input context =
      let (output, j) := renderPage settings cap c s (.empty settings.quiet)
      (⟨0, output, none⟩, j) := by
  rw [answer, h]
  simp only [hcap]

theorem run_render {settings : Settings} {sources : Sources} {arguments : List String}
    (hr : CommandLine.request arguments = .render input context) :
    run settings sources arguments = answer settings sources input context := by
  rw [run, hr]

/-- A run writes nothing and ends with one if its context or its text cannot be read. Otherwise it
ends with zero and writes the page of the text under the context. However that text is cut at its
tags, what is around them stays, and those that fail leave nothing in their place. -/
theorem run_all_or_nothing {settings : Settings} {cap : Nat}
    (hcap : Page.cap? settings.maxTagLength = .ok cap)
    (file : String → Except FileFault Octets) (stdin : List Char) {arguments : List String}
    {input context : Option String}
    (hr : CommandLine.request arguments = .render input context) :
    let result := (run settings (.ofText file stdin) arguments).1
    (result.exit = 1 ∧ result.output = "" ↔ ContextFails file context ∨ InputFails file input) ∧
      (¬(ContextFails file context ∨ InputFails file input) →
        ∃ c text, HasContext file context c ∧ HasText file stdin input text ∧
          let engine := Engine.ofSettings Host.none settings
          let start := World.start c () (.empty settings.quiet)
          result.exit = 0 ∧
          result.output = (engine.render cap (String.ofList text) start).1.text ∧
          (∃ ps, Piece.Cuts cap text ps) ∧
          ∀ ps, Piece.Cuts cap text ps →
            let ends := (Page.calls engine.resolve (Piece.tags ps) start).1
            result.output = String.ofList (Piece.fill ps (ends.map Page.substitution)) ∧
              ends.length = (Piece.tags ps).length ∧
              ∀ ended ∈ ends, ¬Page.Succeeded ended → Page.substitution ended = []) := by
  intro result
  have hresult : result = (answer settings (.ofText file stdin) input context).1 :=
    congrArg Prod.fst (run_render hr)
  have hfails : (∃ f, setup (.ofText file stdin) input context = .error f) ↔
      ContextFails file context ∨ InputFails file input := exists_setup_eq_error
  rw [← hfails, hresult]
  cases hs : setup (.ofText file stdin) input context with
  | error f =>
    rw [answer_of_error hs]
    exact ⟨⟨fun _ => ⟨f, rfl⟩, fun _ => ⟨rfl, rfl⟩⟩, fun h => absurd ⟨f, rfl⟩ h⟩
  | ok found =>
    obtain ⟨c, s⟩ := found
    obtain ⟨hc, text, ht, rfl⟩ := setup_eq_ok_iff.1 hs
    rw [answer_of_ok hcap hs]
    refine ⟨⟨?_, ?_⟩, fun _ => ⟨c, text, hc, ht, rfl, rfl, ⟨_, Piece.cuts_scan cap text⟩,
      fun ps hps => ?_⟩⟩
    · rintro ⟨⟨⟩, -⟩
    · rintro ⟨f, ⟨⟩⟩
    · have hps' : Piece.Cuts cap (String.ofList text).toList ps := by rwa [String.toList_ofList]
      have hpage := Page.render_eq hps' (Engine.ofSettings Host.none settings).resolve
        (World.start c () (.empty settings.quiet))
      refine ⟨?_, Page.calls_length .., ?_⟩
      · exact congrArg (fun r => r.1.text) hpage
      · exact Engine.substitution_of_not_succeeded _ _ hps.path_ne_empty

def folder (page document : String) : Directory where
  files := [("page", page.toList.flatMap String.utf8EncodeChar),
    ("document", document.toList.flatMap String.utf8EncodeChar)]
  folders := []

theorem HasText.eq {text ds : List Char} {name : String} (hn : name ≠ "")
    (hf : file (FileName.normal name) = .ok (text.flatMap String.utf8EncodeChar))
    (h : HasText file stdin (some name) ds) : ds = Text.unifyLineEnds text := by
  cases h with
  | unnamed hi => exact absurd (hi name rfl) hn
  | loaded hi _ hf' =>
    cases hi
    rw [hf, Except.ok.injEq, ← Text.Utf8.decode_eq_ok_iff, Text.Utf8.decode_eq_ok_iff.2 rfl] at hf'
    cases hf'
    rfl

theorem run_all_or_nothing_failing_tag :
    let file := (folder "a<get:q/>b" "\x7b\x7d").read
    Page.cap? Settings.standard.maxTagLength = .ok 4096 ∧
      CommandLine.request ["page"] = .render (some "page") none ∧
      CommandLine.request ["page", "--context", "no"] = .render (some "page") (some "no") ∧
      (run .standard (.ofText file []) ["page"]).1.exit = 0 ∧
      (run .standard (.ofText file []) ["page"]).1.output = "ab" ∧
      (run .standard (.ofText file []) ["page", "--context", "no"]).1.exit = 1 ∧
      (run .standard (.ofText file []) ["page", "--context", "no"]).1.output = "" := by
  intro file
  have hcap : Page.cap? Settings.standard.maxTagLength = .ok 4096 := rfl
  have hp : CommandLine.request ["page"] = .render (some "page") none := by rfl
  have hc : CommandLine.request ["page", "--context", "no"] =
      .render (some "page") (some "no") := by rfl
  have hread : file (FileName.normal "page") =
      .ok ("a<get:q/>b".toList.flatMap String.utf8EncodeChar) := by rfl
  have hlacks : ContextFails file (some "no") :=
    ⟨"no", rfl, by decide, .file (.notFound "no"), by rfl⟩
  have hfound : ¬(ContextFails file none ∨ InputFails file (some "page")) := by
    rintro (⟨_, ⟨⟩, -⟩ | ⟨_, ⟨⟩, -, ⟨f, hf⟩ | ⟨octets, hf, hn⟩⟩)
    · rw [hread] at hf
      cases hf
    · rw [hread] at hf
      cases hf
      exact hn _ rfl
  obtain ⟨hone, hnothing⟩ := (run_all_or_nothing hcap file [] hc).1.2 (.inl hlacks)
  obtain ⟨c, text, hcontext, htext, hexit, hout, -⟩ :=
    (run_all_or_nothing hcap file [] hp).2 hfound
  refine ⟨hcap, hp, hc, hexit, hout.trans ?_, hone, hnothing⟩
  obtain rfl := htext.eq (by decide) hread
  cases hcontext with
  | unnamed => decide +kernel
  | loaded hi => cases hi

/-! Texts without tags. -/

theorem setup_of_loaded {sources : Sources} {name : String} (hn : name ≠ "") {text : List Char}
    (hf : sources.file (FileName.normal name) = .ok (text.flatMap String.utf8EncodeChar))
    {c : Context} (hc : HasContext sources.file context c) :
    setup sources (some name) context = .ok (c, String.ofList (Text.unifyLineEnds text)) := by
  have hp : pageOf sources (some name) = .ok (String.ofList (Text.unifyLineEnds text)) := by
    rw [pageOf, given_eq_some_iff.2 ⟨rfl, hn⟩]
    simp only [hf]
    exact readText_encoded text
  rw [setup, contextOf_eq_ok_iff.2 hc, hp]
  rfl

theorem renderPage_of_no_tag {cap : Nat} {text : List Char} (h : ∀ i t, ¬OccursAt cap text i t)
    (settings : Settings) (c : Context) (j : Journal) :
    renderPage settings cap c (String.ofList text) j = (String.ofList text, j) := by
  have h' : ∀ i t, ¬OccursAt cap (String.ofList text).toList i t := by rwa [String.toList_ofList]
  rw [renderPage, Engine.render, Page.render_of_no_tag h']
  rfl

theorem run_of_no_tag {settings : Settings} {cap : Nat}
    (hcap : Page.cap? settings.maxTagLength = .ok cap) {sources : Sources}
    {arguments : List String} {name : String} {context : Option String}
    (hr : CommandLine.request arguments = .render (some name) context) (hn : name ≠ "")
    {text : List Char}
    (hf : sources.file (FileName.normal name) = .ok (text.flatMap String.utf8EncodeChar))
    {c : Context} (hc : HasContext sources.file context c)
    (ht : ∀ i t, ¬OccursAt cap (Text.unifyLineEnds text) i t) :
    run settings sources arguments =
      (⟨0, String.ofList (Text.unifyLineEnds text), none⟩, .empty settings.quiet) := by
  rw [run_render hr, answer_of_ok hcap (setup_of_loaded hn hf hc), renderPage_of_no_tag ht]

/-- A file without tags is written as it was read, each of its line ends as one line feed. So it is
written character by character if and only if there is no carriage return in it. -/
theorem run_untagged {settings : Settings} {cap : Nat}
    (hcap : Page.cap? settings.maxTagLength = .ok cap) {sources : Sources}
    {arguments : List String} {name : String} {context : Option String}
    (hr : CommandLine.request arguments = .render (some name) context) (hn : name ≠ "")
    {text : List Char}
    (hf : sources.file (FileName.normal name) = .ok (text.flatMap String.utf8EncodeChar))
    {c : Context} (hc : HasContext sources.file context c)
    (ht : ∀ i t, ¬OccursAt cap (Text.unifyLineEnds text) i t) :
    run settings sources arguments =
        (⟨0, String.ofList (Text.unifyLineEnds text), none⟩, .empty settings.quiet) ∧
      ((run settings sources arguments).1.output = String.ofList text ↔ '\r' ∉ text) := by
  rw [run_of_no_tag hcap hr hn hf hc ht, String.ofList_inj, Text.unifyLineEnds_eq_self_iff]
  exact ⟨rfl, Iff.rfl⟩

theorem run_untagged_brackets :
    let file := (folder "1 < 2\n<b>" "\x7b\x7d").read
    let arguments := ["page", "--context", "document"]
    let text := "1 < 2\n<b>".toList
    Page.cap? Settings.standard.maxTagLength = .ok 4096 ∧
      CommandLine.request arguments = .render (some "page") (some "document") ∧
      file (FileName.normal "page") = .ok (text.flatMap String.utf8EncodeChar) ∧
      HasContext file (some "document") .empty ∧
      (∀ i t, ¬OccursAt 4096 (Text.unifyLineEnds text) i t) ∧
      (run .standard ⟨file, []⟩ arguments).1.output = "1 < 2\n<b>" := by
  intro file arguments text
  have hcap : Page.cap? Settings.standard.maxTagLength = .ok 4096 := rfl
  have hr : CommandLine.request arguments = .render (some "page") (some "document") := by rfl
  have hf : file (FileName.normal "page") = .ok (text.flatMap String.utf8EncodeChar) := by rfl
  have hc : HasContext file (some "document") .empty := .loaded rfl (by decide) (by rfl)
  have ht : ∀ i t, ¬OccursAt 4096 (Text.unifyLineEnds text) i t :=
    Piece.tags_scan_eq_nil_iff.1 (by decide +kernel)
  have hout : (run .standard ⟨file, []⟩ arguments).1.output = String.ofList text ↔ '\r' ∉ text :=
    (run_untagged hcap hr (by decide) hf hc ht).2
  exact ⟨hcap, hr, hf, hc, ht, hout.2 (by decide)⟩

/-- Carriage returns do not stay, even where there is no tag. -/
theorem run_drops_carriage_returns :
    let file := (folder "a\r\nb\rc" "\x7b\x7d").read
    let text := "a\r\nb\rc".toList
    file (FileName.normal "page") = .ok (text.flatMap String.utf8EncodeChar) ∧
      (∀ i t, ¬OccursAt 4096 text i t) ∧
      run .standard ⟨file, []⟩ ["page"] = (⟨0, "a\nb\nc", none⟩, .empty false) ∧
      "a\nb\nc" ≠ String.ofList text := by
  intro file text
  have hr : CommandLine.request ["page"] = .render (some "page") none := by rfl
  have hf : file (FileName.normal "page") = .ok (text.flatMap String.utf8EncodeChar) := by rfl
  have hc : HasContext file none .empty := .unnamed nofun
  have ht : ∀ i t, ¬OccursAt 4096 (Text.unifyLineEnds text) i t :=
    Piece.tags_scan_eq_nil_iff.1 (by decide +kernel)
  exact ⟨hf, Piece.tags_scan_eq_nil_iff.1 (by decide +kernel),
    run_of_no_tag rfl hr (by decide) hf hc ht, by decide⟩

end Program

end Inlay
