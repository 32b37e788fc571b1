import Inlay.Message.Complaint

/-! Templates: texts with fields in braces, `{reference!conversion:layout}`. Doubled braces stand
for themselves. -/

namespace Inlay.Message

structure Field where
  reference : List Char
  conversion : Option Char
  layout : List Char

inductive Piece where
  | char (c : Char)
  | field (f : Field)
  | malformed (complaint : Complaint)

namespace Field

/-- A reference, up to a colon, an exclamation mark or a closing brace. Any character may stand in
brackets. -/
def readReference (bracketed : Bool) : List Char → Except Complaint (List Char × List Char)
  | [] => .error .openField
  | c :: rest =>
    if !bracketed && c = '\x7b' then .error .braceInReference
    else if !bracketed && (c = '\x7d' || c = ':' || c = '!') then .ok ([], c :: rest)
    else
      (fun (cs, after) => (c :: cs, after)) <$>
        readReference (if bracketed then c ≠ ']' else c = '[') rest

def readLayout (depth : Nat) : List Char → Except Complaint (List Char × List Char)
  | [] => .error .openLayout
  | c :: rest =>
    if c = '\x7d' && depth = 0 then .ok ([], rest)
    else
      (fun (cs, after) => (c :: cs, after)) <$>
        readLayout (if c = '\x7b' then depth + 1 else if c = '\x7d' then depth - 1 else depth) rest

def readTail (reference : List Char) : List Char → Except Complaint (Field × List Char)
  | ':' :: rest =>
    (fun (layout, after) => (⟨reference, none, layout⟩, after)) <$> readLayout 0 rest
  | '!' :: [] => .error .noConversion
  | '!' :: _ :: [] => .error .openLayout
  | '!' :: c :: '\x7d' :: rest => .ok (⟨reference, some c, []⟩, rest)
  | '!' :: c :: ':' :: rest =>
    (fun (layout, after) => (⟨reference, some c, layout⟩, after)) <$> readLayout 0 rest
  | '!' :: _ :: _ => .error .textAfterConversion
  | cs => .ok (⟨reference, none, []⟩, cs.drop 1)

def read (cs : List Char) : Except Complaint (Field × List Char) :=
  match readReference false cs with
  | .ok (reference, rest) => readTail reference rest
  | .error complaint => .error complaint

theorem readReference_not_longer {bracketed : Bool} {cs reference rest : List Char}
    (h : readReference bracketed cs = .ok (reference, rest)) : rest.length ≤ cs.length := by
  induction cs generalizing bracketed reference with
  | nil => cases h
  | cons c cs ih =>
    rw [readReference] at h
    split at h
    · cases h
    · split at h
      · cases h; exact Nat.le_refl _
      · cases hr : readReference (if bracketed then c ≠ ']' else c = '[') cs with
        | error e => rw [hr] at h; cases h
        | ok r => rw [hr] at h; cases h; exact Nat.le_succ_of_le (ih hr)

theorem readLayout_not_longer {depth : Nat} {cs layout rest : List Char}
    (h : readLayout depth cs = .ok (layout, rest)) : rest.length ≤ cs.length := by
  induction cs generalizing depth layout with
  | nil => cases h
  | cons c cs ih =>
    rw [readLayout] at h
    split at h
    · cases h; exact Nat.le_succ _
    · generalize
        (if c = '\x7b' then depth + 1 else if c = '\x7d' then depth - 1 else depth) = d at h
      cases hr : readLayout d cs with
      | error e => rw [hr] at h; cases h
      | ok r => rw [hr] at h; cases h; exact Nat.le_succ_of_le (ih hr)

theorem readTail_not_longer {reference cs rest : List Char} {f : Field}
    (h : readTail reference cs = .ok (f, rest)) : rest.length ≤ cs.length := by
  unfold readTail at h
  split at h
  · rename_i rs
    cases hr : readLayout 0 rs with
    | error e => rw [hr] at h; cases h
    | ok r =>
      rw [hr] at h; cases h; exact Nat.le_succ_of_le (readLayout_not_longer hr)
  · cases h
  · cases h
  · cases h; simp only [List.length_cons]; omega
  · rename_i rs
    cases hr : readLayout 0 rs with
    | error e => rw [hr] at h; cases h
    | ok r =>
      have := readLayout_not_longer hr
      rw [hr] at h; cases h; simp only [List.length_cons]; omega
  · cases h
  · cases h; simp

theorem read_not_longer {cs rest : List Char} {f : Field} (h : read cs = .ok (f, rest)) :
    rest.length ≤ cs.length := by
  unfold read at h
  split at h
  · rename_i hr
    exact Nat.le_trans (readTail_not_longer h) (readReference_not_longer hr)
  · cases h

end Field

def pieces (cs : List Char) : List Piece :=
  match cs with
  | [] => []
  | c :: rest =>
    if c = '\x7b' then
      match rest with
      | [] => [.malformed .loneOpening]
      | d :: after =>
        if d = '\x7b' then .char d :: pieces after
        else
          match h : Field.read (d :: after) with
          | .ok (f, after') =>
            have := Field.read_not_longer h
            .field f :: pieces after'
          | .error complaint => [.malformed complaint]
    else if c = '\x7d' then
      match rest with
      | [] => [.malformed .loneClosing]
      | d :: after => if d = '\x7d' then .char d :: pieces after else [.malformed .loneClosing]
    else .char c :: pieces rest
  termination_by cs.length
  decreasing_by all_goals simp_all only [List.length_cons]; omega

end Inlay.Message
