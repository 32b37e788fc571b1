/-! Tables: named entries, in the order in which the names first came. -/

namespace Inlay

abbrev Table (α : Type) := List (String × α)

namespace Table

variable {α : Type}

def get? : Table α → String → Option α
  | [], _ => none
  | (n, a) :: rest, name => if n = name then some a else get? rest name

def contains (t : Table α) (name : String) : Bool := (get? t name).isSome

/-- Gives a name its entry; a new name goes to the end. -/
def insert : Table α → String → α → Table α
  | [], name, a => [(name, a)]
  | (n, b) :: rest, name, a => if n = name then (n, a) :: rest else (n, b) :: insert rest name a

def erase (t : Table α) (name : String) : Table α := t.filter fun entry => entry.1 ≠ name

def ofList (entries : List (String × α)) : Table α :=
  entries.foldl (fun t entry => insert t entry.1 entry.2) []

theorem get?_insert_self (t : Table α) (name : String) (a : α) :
    get? (insert t name a) name = some a := by
  induction t with
  | nil => simp [insert, get?]
  | cons entry rest ih =>
    obtain ⟨n, b⟩ := entry
    by_cases h : n = name <;> simp [insert, get?, h, ih]

theorem get?_insert_of_ne (t : Table α) {name other : String} (a : α) (h : name ≠ other) :
    get? (insert t name a) other = get? t other := by
  induction t with
  | nil => simp [insert, get?, h]
  | cons entry rest ih =>
    obtain ⟨n, b⟩ := entry
    by_cases hn : n = name
    · simp [insert, get?, hn, h]
    · simp [insert, get?, hn, ih]

end Table

end Inlay
