import TextTemplate.Template.Preamble

/-! Escape style and bundle where a place names none. A setting holds from where it stands to the
end of its list of blocks, inside the branches of that list too. -/

namespace TextTemplate

/-- What a template is compiled with: its id, the escape styles that it may name, and the suffix
that paths may carry. -/
structure TemplateContext where
  id : TemplateId
  styles : EscapeTable
  suffix : String

def TemplateContext.style (ctx : TemplateContext) (name : String) : Except ParseFault EscapeStyle :=
  match ctx.styles.find? name with
  | some style => .ok style
  | none => .error (.unknownStyle name)

/-- The settings in effect at one place of a template. -/
structure Defaults where
  bundle : Option String
  escape : EscapeStyle

namespace Defaults

/-- The settings that a template starts with: those of its preamble, else those of its id. -/
def initial (ctx : TemplateContext) (p : Preamble) : Except ParseFault Defaults := do
  let escape ← ctx.style ctx.id.escape
  let escape ← match p.escape with
    | some name => ctx.style name
    | none => .ok escape
  .ok ⟨p.bundle.or ctx.id.bundle, escape⟩

/-- With the standard styles, a template starts plain where its id asks for that. -/
theorem initial_standard (name : TextName) (locale : Locale) (bundle : Option String)
    (suffix : String) :
    initial ⟨⟨name, locale, bundle, EscapeStyle.none.name⟩, .standard, suffix⟩ .none =
      .ok ⟨bundle, .none⟩ := by
  have hplain : EscapeTable.standard.find? EscapeStyle.none.name = some .none :=
    EscapeTable.find?_builtin (by decide)
  simp only [initial, TemplateContext.style, hplain]
  rfl

/-- A blank bundle is none. Versions are allowed and mean nothing. -/
def set (ctx : TemplateContext) (d : Defaults) (s : Setting) : Except ParseFault Defaults :=
  match s.key with
  | "bundle" =>
    let name := Text.trimmed s.value
    .ok { d with bundle := if name = "" then none else some name }
  | "escape" => (ctx.style s.value).map fun escape => { d with escape }
  | "version" => .ok d
  | key => .error (.unknownSetting key)

/-- The style that a place names, or the one in effect. -/
def style (d : Defaults) (ctx : TemplateContext) : Option String → Except ParseFault EscapeStyle
  | some name => ctx.style name
  | none => .ok d.escape

end Defaults

end TextTemplate
