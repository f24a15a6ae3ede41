set_option autoImplicit false

namespace CodeRetrieval

inductive FragmentKind where
  | entity
  | member
  | configDocument
  | configSection
  | proseDocument
  | proseSection
  deriving DecidableEq, Repr

namespace FragmentKind

def all : List FragmentKind :=
  [entity, member, configDocument, configSection, proseDocument, proseSection]

def name : FragmentKind → String
  | entity => "entity"
  | member => "member"
  | configDocument => "config_document"
  | configSection => "config_section"
  | proseDocument => "prose_document"
  | proseSection => "prose_section"

def ofName? (s : String) : Option FragmentKind := all.find? (·.name == s)

/-- Documents are looked up in reverse: by who refers to them. -/
def isDocument : FragmentKind → Bool
  | entity | member => false
  | _ => true

theorem ofName?_name (k : FragmentKind) : ofName? k.name = some k := by
  cases k <;> decide

theorem name_inj {j k : FragmentKind} (h : j.name = k.name) : j = k := by
  have hj := ofName?_name j
  rw [h, ofName?_name, Option.some.injEq] at hj
  exact hj.symm

end FragmentKind

end CodeRetrieval
