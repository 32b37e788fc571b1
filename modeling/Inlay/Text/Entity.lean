/-! Character entities: the five characters with a meaning in markup are written as references. -/

namespace Inlay.Text

def entity : Char → List Char
  | '&' => ['&', 'a', 'm', 'p', ';']
  | '<' => ['&', 'l', 't', ';']
  | '>' => ['&', 'g', 't', ';']
  | '"' => ['&', 'q', 'u', 'o', 't', ';']
  | '\'' => ['&', '#', 'x', '2', '7', ';']
  | c => [c]

def escape (s : String) : String := String.ofList (s.toList.flatMap entity)

def unescape : List Char → List Char
  | '&' :: 'a' :: 'm' :: 'p' :: ';' :: rest => '&' :: unescape rest
  | '&' :: 'l' :: 't' :: ';' :: rest => '<' :: unescape rest
  | '&' :: 'g' :: 't' :: ';' :: rest => '>' :: unescape rest
  | '&' :: 'q' :: 'u' :: 'o' :: 't' :: ';' :: rest => '"' :: unescape rest
  | '&' :: '#' :: 'x' :: '2' :: '7' :: ';' :: rest => '\'' :: unescape rest
  | c :: rest => c :: unescape rest
  | [] => []

theorem unescape_entity_append (c : Char) (rest : List Char) :
    unescape (entity c ++ rest) = c :: unescape rest := by
  by_cases h1 : c = '&' <;> by_cases h2 : c = '<' <;> by_cases h3 : c = '>' <;>
    by_cases h4 : c = '"' <;> by_cases h5 : c = '\'' <;> simp_all [entity, unescape]

theorem unescape_escape (s : String) : unescape (escape s).toList = s.toList := by
  simp only [escape, String.toList_ofList]
  induction s.toList with
  | nil => rfl
  | cons c rest ih => rw [List.flatMap_cons, unescape_entity_append, ih]

end Inlay.Text
