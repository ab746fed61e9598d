import TextTemplate.Template.Block

/-! The blocks of a template that have no parts, and among them those that write values and those
that lead to other templates. -/

namespace TextTemplate

namespace Block

mutual

/-- The blocks without parts that the block is made of. -/
def leaves : Block → List Block
  | branch _ _ main otherwise => leavesAll main ++ leavesAll otherwise
  | nested bs => leavesAll bs
  | b => [b]

def leavesAll : List Block → List Block
  | [] => []
  | b :: rest => leaves b ++ leavesAll rest

end

/-- The text that a block is. -/
def text? : Block → Option String
  | text s _ => some s
  | _ => none

/-- The style by which a block writes a value. -/
def escape? : Block → Option EscapeStyle
  | value _ escape _ | typed _ escape _ => some escape
  | _ => none

/-- The handle that a block finds another template by. -/
def handle? : Block → Option (Handle TemplateId)
  | inclusion h | resource h => some h
  | _ => none

end Block

/-- The blocks without parts, in the order of the text. -/
def Template.leaves (t : Template) : List Block := Block.leavesAll t.blocks

/-- The handles that other templates are found by, in the order of the text. -/
def Template.handles (t : Template) : List (Handle TemplateId) := t.leaves.filterMap Block.handle?

end TextTemplate
