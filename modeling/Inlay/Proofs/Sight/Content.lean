import Inlay.Proofs.Sight.Basic
import Inlay.Proofs.Table
import Inlay.Value.Literal

/-! What a value is, counts and contains is the same whatever of it is in sight. -/

namespace Inlay

namespace Value

def number? : Value → Option Nat
  | .plain id .. | .object id .. => some id
  | _ => none

end Value

namespace Sight

variable (s : Sight)

def Sees (v : Value) (name : String) : Prop := ∀ id, v.number? = some id → s.shows id name = true

variable {s}

theorem sees_asked {name : String} (h : name ∈ askedNames) (v : Value) : s.Sees v name :=
  fun id _ => s.asked id name h

theorem Clear.sees (h : s.Clear) (v : Value) (name : String) : s.Sees v name :=
  fun id _ => h id name

end Sight

namespace Value

variable {s : Sight}

@[simp] theorem kind_seen (v : Value) : (v.seen s).kind = v.kind := by cases v <;> rfl

@[simp] theorem typeName_seen (v : Value) : (v.seen s).typeName = v.typeName := by
  cases v with
  | mapping form entries => cases form <;> rfl
  | _ => rfl

@[simp] theorem number?_seen (v : Value) : (v.seen s).number? = v.number? := by cases v <;> rfl

@[simp] theorem id_seen (v : Value) : (v.seen s).id = v.id := by cases v <;> rfl

@[simp] theorem integral?_seen (v : Value) : (v.seen s).integral? = v.integral? := by
  cases v <;> rfl

@[simp] theorem isHosted_seen (v : Value) : (v.seen s).isHosted = v.isHosted := by cases v <;> rfl

@[simp] theorem moduleName_seen (v : Value) : (v.seen s).moduleName = v.moduleName := by
  cases v <;> rfl

@[simp] theorem documentation_seen (v : Value) : (v.seen s).documentation = v.documentation := by
  cases v <;> rfl

@[simp] theorem members_seen (v : Value) : (v.seen s).members = v.members := by
  cases v with
  | object id face own size => cases size <;> rfl
  | _ => rfl

@[simp] theorem reported?_seen (v : Value) : (v.seen s).reported? = v.reported? := by
  cases v <;> rfl

@[simp] theorem ofTexts_seen (ss : List String) : (ofTexts ss).seen s = ofTexts ss := by
  rw [ofTexts, seen, seenItems_eq_map, List.map_map]
  rfl

theorem own_wrapped_seen (id : Nat) (face : Face) (target : Value) :
    own (.wrapped id face (target.seen s)) =
      (own (.wrapped id face target)).map fun (n, a) => (n, a.seen s) := by
  have hp : (ofTexts face.properties).seen s = ofTexts face.properties := ofTexts_seen _
  have hm : (ofTexts face.methods).seen s = ofTexts face.methods := ofTexts_seen _
  simp only [own, Face.lists, List.map_cons, List.map_nil, Attribute.seen, hp, hm]

theorem get?_own_seen {v : Value} {name : String} (h : s.Sees v name) :
    Table.get? (v.seen s).own name = (Table.get? v.own name).map (Attribute.seen s) := by
  cases v with
  | plain id _ own | object id _ own => exact get?_seenOwn (h id rfl) own
  | wrapped id face target => rw [seen, own_wrapped_seen, Table.get?_map]
  | _ => rfl

theorem raised?_seen {v : Value} {name : String} (h : s.Sees v name) :
    (v.seen s).raised? name = v.raised? name := by
  cases v with
  | plain id _ own | object id _ own =>
    rw [seen, raised?, raised?, get?_seenOwn (h id rfl)]
    rcases Table.get? own name with _ | a
    · rfl
    · cases a <;> rfl
  | _ => rfl

theorem raised?_seen_asked (v : Value) {name : String} (h : name ∈ Sight.askedNames) :
    (v.seen s).raised? name = v.raised? name :=
  raised?_seen (Sight.sees_asked h v)

@[simp] theorem raised?_plain {id : Nat} {name : String} (h : name ∈ Sight.askedNames)
    (shown : String) (own : Table Attribute) :
    raised? (.plain id shown (seenOwn s id own)) name = raised? (.plain id shown own) name :=
  raised?_seen_asked (.plain id shown own) h

@[simp] theorem raised?_object {id : Nat} {name : String} (h : name ∈ Sight.askedNames)
    (face : Face) (own : Table Attribute) (size : Option Int) :
    raised? (.object id face (seenOwn s id own) size) name =
      raised? (.object id face own size) name :=
  raised?_seen_asked (.object id face own size) h

@[simp] theorem isHashed_seen (v : Value) : (v.seen s).isHashed = v.isHashed := by
  simp (disch := decide) only [isHashed, raised?_seen_asked]

@[simp] theorem reportedSize_seen (v : Value) : (v.seen s).reportedSize = v.reportedSize := by
  simp (disch := decide) only [reportedSize, raised?_seen_asked, reported?_seen, typeName_seen]

@[simp] theorem size_seen (v : Value) : (v.seen s).size = v.size := by
  have h := reportedSize_seen (s := s) v
  cases v with
  | list | tuple => simp [seen, size, seenItems_eq_map]
  | mapping form entries => simp [seen, size, seenEntries_eq_map]
  | plain id shown own => exact h
  | object id face own size => exact h
  | _ => rfl

@[simp] theorem truth_seen (v : Value) : (v.seen s).truth = v.truth := by
  cases v with
  | list | tuple => simp [seen, truth, seenItems_eq_map]
  | mapping form entries => simp [seen, truth, seenEntries_eq_map]
  | plain id shown own =>
    simp (disch := decide) only [seen, truth, raised?_plain, reported?, reportedSize, typeName]
  | object id face own size =>
    simp (disch := decide) only [seen, truth, raised?_object, reported?, reportedSize, typeName]
  | _ => rfl

theorem elements?_seen (v : Value) :
    (v.seen s).elements? = v.elements?.map fun items => (List.map (seen s)) <$> items := by
  cases v with
  | text t => simp [seen, elements?, Function.comp_def, Functor.map, Except.map]
  | list | tuple => simp [seen, elements?, seenItems_eq_map, Functor.map, Except.map]
  | range r =>
    cases hr : rangeLength r <;>
      simp [seen, elements?, hr, Function.comp_def, Functor.map, Except.map]
  | mapping form entries =>
    simp [seen, elements?, seenEntries_eq_map, Function.comp_def, Functor.map, Except.map]
  | bytes mutable octets => simp [seen, elements?, Function.comp_def, Functor.map, Except.map]
  | plain id shown own =>
    simp (disch := decide) only [seen, elements?, raised?_plain]
    split
    · split <;> rfl
    · rfl
  | object id face own size =>
    simp (disch := decide) only [seen, elements?, raised?_object]
    split
    · split <;> rfl
    · rfl
  | _ => rfl

theorem eq_nil_of_elements {v : Value} {items : List Value} (hn : v.number? ≠ none)
    (h : v.elements = .ok items) : items = [] := by
  rw [elements] at h
  cases v with
  | plain | object =>
    simp only [elements?] at h
    split at h
    · split at h
      · exact (Except.ok.inj h).symm
      · cases h
    · cases h
  | _ => exact absurd rfl hn

theorem elements_seen (v : Value) :
    (v.seen s).elements = (List.map (seen s)) <$> v.elements := by
  rw [elements, elements, elements?_seen, typeName_seen]
  cases v.elements? with
  | none => rfl
  | some items => rfl

@[simp] theorem checkExpected_seen (v : Value) : (v.seen s).checkExpected = v.checkExpected := by
  simp (disch := decide) only [checkExpected, raised?_seen_asked, reportedSize_seen]

mutual

theorem checkHashable_seen : ∀ v : Value, (v.seen s).checkHashable = v.checkHashable
  | .tuple items => checkItemsHashable_seen items
  | .plain id shown own => by
    have h := isHashed_seen (s := s) (.plain id shown own)
    simp only [seen] at h
    simp only [seen, checkHashable, h, typeName]
  | .object id face own size => by
    have h := isHashed_seen (s := s) (.object id face own size)
    simp only [seen] at h
    simp only [seen, checkHashable, h, typeName]
  | .mapping form entries => by cases form <;> rfl
  | .bytes mutable octets => by cases mutable <;> rfl
  | .null | .bool _ | .int _ | .float _ | .text _ | .list _ | .range _ | .missing | .callable _
  | .wrapped .. | .method .. | .parts _ => rfl

theorem checkItemsHashable_seen : ∀ items : List Value,
    checkItemsHashable (seenItems s items) = checkItemsHashable items
  | [] => rfl
  | v :: rest => by
    rw [seenItems, checkItemsHashable, checkItemsHashable, checkHashable_seen v,
      checkItemsHashable_seen rest]

end

mutual

theorem equals_seen : ∀ v w : Value, (v.seen s).equals (w.seen s) = v.equals w
  | .list vs, w => by
    cases w with
    | list ws => exact equalItems_seen vs ws
    | _ => rfl
  | .tuple vs, w => by
    cases w with
    | tuple ws => exact equalItems_seen vs ws
    | _ => rfl
  | .mapping form es, w => by
    cases w with
    | mapping form' fs =>
      have hl : ∀ entries : List (Value × Value),
          (seenEntries s entries).length = entries.length := by
        simp [seenEntries_eq_map]
      rw [seen, seen, equals, equals, equalEntries_seen es fs, hl, hl]
    | _ => rfl
  | .method v m, w => by
    cases w with
    | method w n => simp only [seen, equals, equals_seen v w]
    | _ => rfl
  | .null, w | .bool _, w | .int _, w | .float _, w | .text _, w | .range _, w | .bytes .., w
  | .missing, w | .callable _, w | .plain .., w | .object .., w | .wrapped .., w
  | .parts _, w => by cases w <;> rfl

theorem equalItems_seen : ∀ vs ws : List Value,
    equalItems (seenItems s vs) (seenItems s ws) = equalItems vs ws
  | [], [] => rfl
  | [], _ :: _ => rfl
  | _ :: _, [] => rfl
  | v :: vs, w :: ws => by
    simp only [seenItems, equalItems, equals_seen v w, equalItems_seen vs ws]

theorem equalEntries_seen : ∀ es fs : List (Value × Value),
    equalEntries (seenEntries s es) (seenEntries s fs) = equalEntries es fs
  | [], _ => rfl
  | (key, v) :: rest, fs => by
    have ha : (seenEntries s fs).any (fun f => equals (key.seen s) f.1 && equals (v.seen s) f.2) =
        fs.any fun f => equals key f.1 && equals v f.2 := by
      simp only [seenEntries_eq_map, List.any_map, Function.comp_def, equals_seen key,
        equals_seen v]
    rw [seenEntries, equalEntries, equalEntries, ha, equalEntries_seen rest fs]

end

attribute [simp] checkHashable_seen equals_seen

@[simp] theorem isText_seen (t : String) (v : Value) : isText t (v.seen s) = isText t v := by
  cases v <;> rfl

@[simp] theorem octetsHold_seen (octets : List UInt8) (v : Value) :
    octetsHold octets (v.seen s) = octetsHold octets v := by
  cases v with
  | mapping form entries => cases form <;> rfl
  | _ => rfl

def contains (v w : Value) : Except Fault Bool :=
  match v.raised? "__contains__", v.elements? with
  | some f, _ => .error f
  | none, some items => (·.any w.equals) <$> items
  | none, none => .error (.notContainer v.typeName)

theorem contains_seen (v w : Value) : (v.seen s).contains (w.seen s) = v.contains w := by
  have he : ∀ items : List Value,
      (items.map (seen s)).any (w.seen s).equals = items.any w.equals := by
    simp [Function.comp_def]
  rw [contains, contains, raised?_seen_asked v (by decide), elements?_seen, typeName_seen]
  rcases v.raised? "__contains__" with _ | f
  · rcases v.elements? with _ | items | items
    · rfl
    · rfl
    · exact congrArg Except.ok (he items)
  · rfl

@[simp] theorem holds_seen (v w : Value) : (v.seen s).holds (w.seen s) = v.holds w := by
  have h := contains_seen (s := s) v w
  cases v with
  | text t =>
    cases w with
    | mapping form entries => cases form <;> rfl
    | _ => rfl
  | bytes mutable octets => exact octetsHold_seen octets w
  | range r => simp only [seen, holds, integral?_seen]
  | mapping form entries => simp [seen, holds, seenEntries_eq_map, Function.comp_def]
  | _ => exact h

theorem holds_ofTexts (ss : List String) (name : String) :
    (ofTexts ss).holds (.text name) = .ok (ss.contains name) := by
  have hc : (ss.map Value.text).any (Value.text name).equals = ss.contains name := by
    induction ss with
    | nil => rfl
    | cons t rest ih => rw [List.map_cons, List.any_cons, ih, List.contains_cons, equals]
  exact congrArg Except.ok hc

@[simp] theorem isCallable_seen (v : Value) : (v.seen s).isCallable = v.isCallable := by
  cases v with
  | plain id shown own => simp (disch := decide) only [seen, isCallable, raised?_plain]
  | object id face own size => simp (disch := decide) only [seen, isCallable, raised?_object]
  | _ => rfl

@[simp] theorem callFault_seen (v : Value) : (v.seen s).callFault = v.callFault := by
  simp (disch := decide) only [callFault, raised?_seen_asked, typeName_seen]

@[simp] theorem attributeName_seen (v : Value) : (v.seen s).attributeName = v.attributeName := by
  cases v with
  | mapping form entries => cases form <;> rfl
  | _ => rfl

@[simp] theorem memberText_seen (owner : Value) (m : Member) :
    memberText (owner.seen s) m = memberText owner m := by
  have ht := typeName_seen (s := s) owner
  cases owner with
  | wrapped id face target => cases m <;> rfl
  | _ => cases m <;> simp only [seen] at ht <;> simp only [seen, memberText, ht]

@[simp] theorem boundText_seen (owner : Value) (m : Member) (ownerText : String) :
    boundText (owner.seen s) m ownerText = boundText owner m ownerText := by
  simp only [boundText, moduleName_seen, typeName_seen, memberText_seen]

theorem ownLiteral_seen (v : Value) (shown : String) :
    ownLiteral (v.seen s) shown = ownLiteral v shown := by
  rw [ownLiteral, ownLiteral, raised?_seen_asked v (by decide)]

mutual

theorem literal_seen : ∀ v : Value, (v.seen s).literal = v.literal
  | .list items | .tuple items => by rw [seen, literal, literal, literals_seen items]
  | .mapping form entries => by rw [seen, literal, literal, entryLiterals_seen entries]
  | .method owner m => by
    have hb := boundText_seen (s := s) owner m
    rw [seen, literal, literal, literal_seen owner, funext hb]
  | .parts owner => by rw [seen, literal, literal, memberText_seen]
  | .plain id shown own => ownLiteral_seen (.plain id shown own) shown
  | .object id face own size =>
    ownLiteral_seen (.object id face own size) ("<" ++ face.className ++ " object>")
  | .null | .bool _ | .int _ | .float _ | .text _ | .range _ | .bytes .. | .missing
  | .callable _ | .wrapped .. => rfl

theorem literals_seen : ∀ items : List Value, literals (seenItems s items) = literals items
  | [] => rfl
  | v :: rest => by rw [seenItems, literals, literals, literal_seen v, literals_seen rest]

theorem entryLiterals_seen : ∀ entries : List (Value × Value),
    entryLiterals (seenEntries s entries) = entryLiterals entries
  | [] => rfl
  | (key, v) :: rest => by
    rw [seenEntries, entryLiterals, entryLiterals, literal_seen key, literal_seen v,
      entryLiterals_seen rest]

end

attribute [simp] literal_seen

@[simp] theorem display_seen (v : Value) : (v.seen s).display = v.display := by
  have hl := literal_seen (s := s) v
  rw [display.eq_def, display.eq_def, raised?_seen_asked v (by decide)]
  cases v.raised? "__str__" with
  | some f => rfl
  | none =>
    cases v with
    | mapping form entries =>
      cases form with
      | readOnly => exact literal_seen (.mapping .plain entries)
      | _ => exact hl
    | text t => rfl
    | _ => exact hl

@[simp] theorem formatted_seen (v : Value) : (v.seen s).formatted = v.formatted := by
  simp (disch := decide) only [formatted, raised?_seen_asked, display_seen]

@[simp] theorem literalOrFault_seen (v : Value) : (v.seen s).literalOrFault = v.literalOrFault := by
  rw [literalOrFault, literalOrFault, literal_seen]

end Value
end Inlay
