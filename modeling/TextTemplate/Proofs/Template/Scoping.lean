import TextTemplate.Proofs.Template.Outline

/-! Which escape style and which bundle hold where a template names none. They are those set last
before the place, in its own list of blocks or else in the lists around it, one by one outwards. -/

namespace TextTemplate

/-- The settings that a block makes for those after it in its list. -/
def Block.assigned : Block → List Setting
  | set settings => settings
  | _ => []

/-- The settings made by a list of nodes, in order. Those made inside a branch are not among
them. -/
def Node.settings (nodes : List Node) : List Setting := nodes.flatMap (·.block.assigned)

/-- Where a node stands: the settings made before it in its own list, those made before the branch
around it in the list of that branch, and so on outwards. -/
abbrev Place := List (List Setting)

namespace Place

/-- The value that was assigned last, in the innermost list that assigns one. -/
def assigned? (key : String) (place : Place) : Option String :=
  place.findSome? fun settings => (settings.reverse.find? (·.key = key)).map (·.value)

/-- The bundle in force at a place: the one assigned last, where a blank one is none, else that of
the preamble, else that of the template's id. -/
def bundle (ctx : TemplateContext) (p : Preamble) (place : Place) : Option String :=
  match place.assigned? "bundle" with
  | some value => if Text.trimmed value = "" then none else some (Text.trimmed value)
  | none => p.bundle.or ctx.id.bundle

/-- The name of the style in force at a place. -/
def styleName (ctx : TemplateContext) (p : Preamble) (place : Place) : String :=
  ((place.assigned? "escape").or p.escape).getD ctx.id.escape

/-- The settings `d` are those in force at the place. -/
structure InForce (ctx : TemplateContext) (p : Preamble) (place : Place) (d : Defaults) : Prop where
  bundle : d.bundle = place.bundle ctx p
  escape : ctx.style (place.styleName ctx p) = .ok d.escape

theorem assigned?_append (key : String) (settings : List Setting) (s : Setting) (outer : Place) :
    assigned? key ((settings ++ [s]) :: outer) =
      if s.key = key then some s.value else assigned? key (settings :: outer) := by
  by_cases h : s.key = key <;> simp [assigned?, List.findSome?_cons, h]

section
variable {ctx : TemplateContext} {p : Preamble} {d d' : Defaults} {settings : List Setting}
  {outer place place' : Place}

/-- Only the values assigned last count. -/
theorem InForce.of_assigned (hbundle : place'.assigned? "bundle" = place.assigned? "bundle")
    (hescape : place'.assigned? "escape" = place.assigned? "escape") (h : InForce ctx p place d) :
    InForce ctx p place' d where
  bundle := by rw [h.bundle, Place.bundle, Place.bundle, hbundle]
  escape := by rw [← h.escape, styleName, styleName, hescape]

/-- At the head of a list inside, the same holds as around it. -/
theorem InForce.enter (h : InForce ctx p place d) : InForce ctx p ([] :: place) d :=
  ⟨h.bundle, h.escape⟩

theorem inForce_initial (h : Defaults.initial ctx p = .ok d) : InForce ctx p [[]] d := by
  have hnone (key : String) : assigned? key [[]] = none := rfl
  obtain ⟨own, hown, h⟩ := Template.bind_eq_ok_iff.1 h
  cases hp : p.escape with
  | none =>
    rw [hp] at h
    cases h
    exact ⟨by rw [Place.bundle, hnone], by rw [styleName, hnone, hp]; exact hown⟩
  | some name =>
    rw [hp] at h
    obtain ⟨escape, hescape, h⟩ := Template.bind_eq_ok_iff.1 h
    cases h
    exact ⟨by rw [Place.bundle, hnone], by rw [styleName, hnone, hp]; exact hescape⟩

/-- A setting that is made comes into force, and the others stay. -/
theorem InForce.set (h : InForce ctx p (settings :: outer) d) {s : Setting}
    (hset : Defaults.set ctx d s = .ok d') : InForce ctx p ((settings ++ [s]) :: outer) d' := by
  have hassigned (key : String) := assigned?_append key settings s outer
  unfold Defaults.set at hset
  split at hset
  · rename_i hkey
    simp only [hkey] at hassigned
    obtain rfl := Except.ok.inj hset
    refine ⟨?_, ?_⟩
    · rw [Place.bundle, hassigned, if_pos rfl]
    · rw [styleName, hassigned, if_neg (by decide)]
      exact h.escape
  · rename_i hkey
    simp only [hkey] at hassigned
    cases hstyle : ctx.style s.value with
    | error fault => simp [hstyle, Except.map] at hset
    | ok escape =>
      simp only [hstyle, Except.map, Except.ok.injEq] at hset
      subst hset
      refine ⟨?_, ?_⟩
      · rw [Place.bundle, hassigned, if_neg (by decide)]
        exact h.bundle
      · rw [styleName, hassigned, if_pos rfl]
        exact hstyle
  · rename_i hkey
    simp only [hkey] at hassigned
    cases hset
    exact h.of_assigned ((hassigned _).trans (if_neg (by decide)))
      ((hassigned _).trans (if_neg (by decide)))
  · cases hset

theorem InForce.setAll (h : InForce ctx p (settings :: outer) d) {more : List Setting}
    (hset : more.foldlM (Defaults.set ctx) d = .ok d') :
    InForce ctx p ((settings ++ more) :: outer) d' := by
  induction more generalizing settings d with
  | nil =>
    cases hset
    rwa [List.append_nil]
  | cons s more ih =>
    rw [List.foldlM_cons] at hset
    cases hfirst : Defaults.set ctx d s with
    | error fault => simp [hfirst, bind, Except.bind] at hset
    | ok middle =>
      rw [hfirst] at hset
      rw [List.append_cons]
      exact ih (h.set hfirst) hset

end

end Place

/-- The block that a token becomes where the settings `d` are in force. -/
inductive Block.Follows (ctx : TemplateContext) (d : Defaults) : Token → Block → Prop
  | text (s : String) : Follows ctx d (.text s) (.text s false)
  | comment (ofValue : Bool) : Follows ctx d (.comment ofValue) (.comment ofValue)
  | value {named rest fallback : Option String} {path : String} {style : EscapeStyle}
      (escape : d.style ctx named = .ok style) :
      Follows ctx d (.value named path rest) (.value (DataPath.ofText path) style fallback)
  | typed {named rest : Option String} {path : String} {format : Format} {style : EscapeStyle}
      (escape : d.style ctx named = .ok style) :
      Follows ctx d (.value named path rest) (.typed (DataPath.ofText path) style format)
  | hereText {named kind styles : Option String} {body : String} {start : Nat}
      {style : EscapeStyle} (escape : d.style ctx named = .ok style) :
      Follows ctx d (.hereDocument named none kind styles body start)
        (.text (style.apply body) true)
  | hereValue {named styles : Option String} {path body : String} {start : Nat}
      {style : EscapeStyle} (escape : d.style ctx named = .ok style) :
      Follows ctx d (.hereDocument named (some path) none styles body start)
        (.value (DataPath.ofText path) style (some body))
  | hereTyped {named styles : Option String} {path kind body : String} {start : Nat}
      {format : Format} {style : EscapeStyle} (escape : d.style ctx named = .ok style) :
      Follows ctx d (.hereDocument named (some path) (some kind) styles body start)
        (.typed (DataPath.ofText path) style format)
  | resource {bundle key : String} : Follows ctx d (.resource bundle (some key))
      (.resource ⟨.message bundle key ctx.id.locale d.escape.name, none⟩)
  | ownResource {bundle key : String} (held : d.bundle = some bundle) :
      Follows ctx d (.resource key none)
        (.resource ⟨.message bundle key ctx.id.locale d.escape.name, none⟩)
  | inclusion {param : String} {base path : SourcePath} (source : ctx.id.name = .source base)
      (resolved : base.resolve? (Text.trimmed param) ctx.suffix = some path) :
      Follows ctx d (.directive "include" param)
        (.inclusion ⟨.source path ctx.id.locale d.bundle d.escape.name, none⟩)
  | apply {param : String} {call : ApplyCall} (read : ApplyCall.ofText param = .ok call) :
      Follows ctx d (.directive "apply" param) (.apply call.function call.out call.parameters)
  | set {param : String} {settings : List Setting} (read : Setting.ofText param = .ok settings) :
      Follows ctx d (.directive "set" param) (.set settings)

/-- So it is with a node. Of a branch, only the tokens say anything here. -/
inductive Node.Follows (ctx : TemplateContext) (d : Defaults) : Node → Prop
  | leaf {t : Spanned} {b : Block} (block : Block.Follows ctx d t.token b) :
    Follows ctx d (leaf t b)
  | branch {kind : BranchKind} {param : String} {path : DataPath} {opening closing : Spanned}
      {main otherwise : List Node} {divider : Option Spanned}
      (opens : opening.token.role = .opens kind param)
      (named : Block.branchPath kind param = .ok path)
      (divides : ∀ t ∈ divider, t.token.role = .divides)
      (undivided : divider = none → otherwise = [])
      (closes : closing.token.role = .closes) :
      Follows ctx d (branch kind path opening main divider otherwise closing)

namespace Block
variable {ctx : TemplateContext} {d d' : Defaults} {b : Block}

theorem eq_ok_of_map {x : Except ParseFault Block} (h : x.map (·, d) = .ok (b, d')) :
    x = .ok b ∧ d' = d := by
  cases x with
  | error fault => cases h
  | ok a =>
    cases h
    exact ⟨rfl, rfl⟩

theorem follows_of_ofFormat {path : DataPath} {escape : EscapeStyle} {kind : String}
    {styles : List String} (h : ofFormat path escape kind styles = .ok b) :
    ∃ format, b = typed path escape format := by
  unfold ofFormat at h
  split at h
  · cases h
    exact ⟨_, rfl⟩
  · cases h

theorem follows_of_ofValue {named rest : Option String} {path : String}
    (h : ofValue ctx d named path rest = .ok b) : Follows ctx d (.value named path rest) b := by
  unfold ofValue at h
  cases hescape : d.style ctx named with
  | error fault => simp [hescape, bind, Except.bind] at h
  | ok style =>
    simp only [hescape, bind, Except.bind] at h
    split at h
    · cases h
      exact .value hescape
    · rename_i cs _
      generalize fallback (String.ofList ('\'' :: cs)) = text at h
      cases text with
      | error fault => cases h
      | ok text =>
        cases h
        exact .value hescape
    · split at h <;>
      · obtain ⟨format, rfl⟩ := follows_of_ofFormat h
        exact .typed hescape

theorem follows_of_ofHereDocument {named path kind styles : Option String} {body : String}
    {start : Nat} (h : ofHereDocument ctx d named path kind styles body = .ok b) :
    Follows ctx d (.hereDocument named path kind styles body start) b := by
  unfold ofHereDocument at h
  cases hescape : d.style ctx named with
  | error fault => simp [hescape, bind, Except.bind] at h
  | ok style =>
    simp only [hescape, bind, Except.bind] at h
    split at h
    · cases h
      exact .hereText hescape
    · cases h
      exact .hereValue hescape
    · obtain ⟨format, rfl⟩ := follows_of_ofFormat h
      exact .hereTyped hescape

theorem follows_of_ofResource {first : String} {second : Option String}
    (h : ofResource ctx d first second = .ok b) : Follows ctx d (.resource first second) b := by
  unfold ofResource at h
  split at h
  · cases h
    exact .resource
  · rename_i hbundle
    cases h
    exact .ownResource hbundle
  · cases h

theorem follows_of_ofInclusion {param : String} (h : ofInclusion ctx d param = .ok b) :
    Follows ctx d (.directive "include" param) b := by
  unfold ofInclusion at h
  split at h
  · cases h
  · rename_i hname
    simp only at h
    split at h
    · cases h
    · split at h
      · cases h
      · rename_i hresolved
        cases h
        exact .inclusion hname hresolved

theorem Follows.assigned_eq_nil {token : Token} (h : Follows ctx d token b)
    (hset : ∀ param, token ≠ .directive "set" param) : b.assigned = [] := by
  cases h with
  | set => exact absurd rfl (hset _)
  | _ => rfl

theorem follows_of_ofApply {param : String} (h : ofApply param = .ok b) :
    Follows ctx d (.directive "apply" param) b := by
  unfold ofApply at h
  split at h
  · rename_i hread
    cases h
    exact .apply hread
  · cases h

/-- A token that compiles becomes a block that follows what is in force, and what is in force after
it is what the block's settings make of it. -/
theorem ofToken_eq_ok {token : Token} (h : ofToken ctx d token = .ok (b, d')) :
    Follows ctx d token b ∧ b.assigned.foldlM (Defaults.set ctx) d = .ok d' := by
  -- All but settings leave what is in force as it is.
  have hunchanged {x : Except ParseFault Block} (hx : x.map (·, d) = .ok (b, d'))
      (hfollows : x = .ok b → Follows ctx d token b)
      (hset : ∀ param, token ≠ .directive "set" param) :
      Follows ctx d token b ∧ b.assigned.foldlM (Defaults.set ctx) d = .ok d' := by
    obtain ⟨hblock, rfl⟩ := eq_ok_of_map hx
    refine ⟨hfollows hblock, ?_⟩
    rw [(hfollows hblock).assigned_eq_nil hset]
    rfl
  cases token with
  | text s =>
    cases h
    exact ⟨.text s, rfl⟩
  | comment ofValue =>
    cases h
    exact ⟨.comment ofValue, rfl⟩
  | value => exact hunchanged h follows_of_ofValue (by simp)
  | hereDocument => exact hunchanged h follows_of_ofHereDocument (by simp)
  | resource => exact hunchanged h follows_of_ofResource (by simp)
  | directive name param =>
    simp only [ofToken] at h
    split at h
    · exact hunchanged h follows_of_ofApply (by simp)
    · exact hunchanged h follows_of_ofInclusion (by simp)
    · unfold ofSettings at h
      split at h
      · cases h
      · cases h
      · rename_i settings _ hread
        cases hset : settings.foldlM (Defaults.set ctx) d with
        | error fault => simp [hset, Except.map] at h
        | ok after =>
          simp only [hset, Except.map, Except.ok.injEq, Prod.mk.injEq] at h
          obtain ⟨rfl, rfl⟩ := h
          exact ⟨.set hread, hset⟩
    · cases h

end Block

/-- The lists of nodes inside a node: the two parts of a branch. -/
def Node.parts : Node → List (List Node)
  | leaf _ _ => []
  | branch _ _ _ main _ otherwise _ => [main, otherwise]

/-- A node of a list, or of the branches in that list, and where it stands. -/
inductive Stands : List Node → Place → Node → Prop
  | here (before : List Node) (n : Node) (after : List Node) :
      Stands (before ++ n :: after) [Node.settings before] n
  | within {before after part : List Node} {branch n : Node} {place : Place}
      (inside : part ∈ branch.parts) (stands : Stands part place n) :
      Stands (before ++ branch :: after) (place ++ [Node.settings before]) n

theorem append_cons_eq_concat {α : Type} {before after nodes : List α} {m n : α}
    (h : before ++ m :: after = nodes ++ [n]) :
    (before = nodes ∧ m = n) ∨ ∃ rest, nodes = before ++ m :: rest := by
  rcases List.eq_nil_or_concat after with rfl | ⟨rest, last, rfl⟩
  · obtain ⟨rfl, heq⟩ := List.append_inj' h rfl
    cases heq
    exact .inl ⟨rfl, rfl⟩
  · rw [List.concat_eq_append, ← List.cons_append, ← List.append_assoc] at h
    obtain ⟨rfl, _⟩ := List.append_inj' h rfl
    exact .inr ⟨rest, rfl⟩

/-- A node in a longer list is one of those before, or the last one, or inside that. -/
theorem Stands.of_concat {nodes : List Node} {n m : Node} {place : Place}
    (h : Stands (nodes ++ [n]) place m) :
    Stands nodes place m ∨ (place = [Node.settings nodes] ∧ m = n) ∨
      ∃ part ∈ n.parts, ∃ inner, place = inner ++ [Node.settings nodes] ∧ Stands part inner m := by
  generalize hall : nodes ++ [n] = all at h
  cases h with
  | here before _ after =>
    obtain ⟨rfl, rfl⟩ | ⟨rest, rfl⟩ := append_cons_eq_concat hall.symm
    · exact .inr (.inl ⟨rfl, rfl⟩)
    · exact .inl (.here ..)
  | @within before _ part _ _ inner inside stands =>
    obtain ⟨rfl, rfl⟩ | ⟨rest, rfl⟩ := append_cons_eq_concat hall.symm
    · exact .inr (.inr ⟨part, inside, inner, rfl, stands⟩)
    · exact .inl (.within inside stands)

section
variable {ctx : TemplateContext} {p : Preamble} {outer : Place} {nodes : List Node}

/-- Every node in a list follows what is in force where it stands, with `outer` around the list. -/
def Settled (ctx : TemplateContext) (p : Preamble) (outer : Place) (nodes : List Node) : Prop :=
  ∀ place n, Stands nodes place n → ∃ d, Place.InForce ctx p (place ++ outer) d ∧ n.Follows ctx d

theorem settled_nil : Settled ctx p outer [] := by
  intro place n h
  generalize hall : ([] : List Node) = all at h
  cases h <;> simp at hall

theorem Settled.concat (h : Settled ctx p outer nodes) {d : Defaults} {n : Node}
    (hforce : Place.InForce ctx p (Node.settings nodes :: outer) d) (hn : n.Follows ctx d)
    (hparts : ∀ part ∈ n.parts, Settled ctx p (Node.settings nodes :: outer) part) :
    Settled ctx p outer (nodes ++ [n]) := by
  intro place m hm
  obtain hbefore | ⟨rfl, rfl⟩ | ⟨part, hpart, inner, rfl, hinside⟩ := hm.of_concat
  · exact h place m hbefore
  · exact ⟨d, hforce, hn⟩
  · rw [List.append_assoc]
    exact hparts part hpart inner m hinside

/-- The settings made before each open branch in its list, the innermost first. -/
def OpenNode.places (opened : List OpenNode) : Place := opened.map fun b => Node.settings b.before

/-- What was read in and before the open branches follows what is in force there. -/
inductive OpenNode.Sound (ctx : TemplateContext) (p : Preamble) : List OpenNode → Prop
  | nil : Sound ctx p []
  | cons {b : OpenNode} {outer : List OpenNode} {param : String} (around : Sound ctx p outer)
      (opens : b.opening.token.role = .opens b.kind param)
      (named : Block.branchPath b.kind param = .ok b.path)
      (force : Place.InForce ctx p (places (b :: outer)) b.outer)
      (before : Settled ctx p (places outer) b.before)
      (main : ∀ m ∈ b.main, Settled ctx p (places (b :: outer)) m.1 ∧ m.2.token.role = .divides) :
      Sound ctx p (b :: outer)

/-- All that was read follows what is in force where it stands, and what the draft holds to be in
force is. -/
structure Draft.Sound (ctx : TemplateContext) (p : Preamble) (z : Draft) : Prop where
  opened : OpenNode.Sound ctx p z.opened
  force : Place.InForce ctx p (Node.settings z.nodes :: OpenNode.places z.opened) z.defaults
  nodes : Settled ctx p (OpenNode.places z.opened) z.nodes

theorem Node.settings_concat (nodes : List Node) (n : Node) :
    Node.settings (nodes ++ [n]) = Node.settings nodes ++ n.block.assigned := by
  simp [Node.settings]

theorem OpenNode.assigned_closed (b : OpenNode) (last : List Node) (closing : Spanned) :
    (b.closed last closing).block.assigned = [] := by
  rw [block_closed]
  unfold OpenBranch.closed
  split <;> rfl

/-- A branch that ends follows what is in force around it, and so do its parts what is in force
there. -/
theorem OpenNode.Sound.closed {b : OpenNode} {outer : List OpenNode} {last : List Node}
    {closing : Spanned} (h : Sound ctx p (b :: outer))
    (hlast : Settled ctx p (places (b :: outer)) last)
    (hclosing : closing.token.role = .closes) :
    Settled ctx p (places outer) (b.before ++ [b.closed last closing]) := by
  obtain _ | ⟨_, opens, named, force, hbefore, main⟩ := h
  refine hbefore.concat force ?_ ?_
  · unfold OpenNode.closed
    split
    · rename_i m divider hmain
      refine .branch opens named (fun t ht => ?_) nofun hclosing
      cases ht
      exact (main _ hmain).2
    · exact .branch opens named nofun (fun _ => rfl) hclosing
  · unfold OpenNode.closed
    split
    · rename_i m divider hmain
      exact List.forall_mem_cons.2 ⟨(main _ hmain).1, List.forall_mem_singleton.2 hlast⟩
    · exact List.forall_mem_cons.2 ⟨hlast, List.forall_mem_singleton.2 settled_nil⟩

theorem Draft.Step.sound {t : Spanned} {z z' : Draft}
    (h : Step (Template.compileToken ctx) t z z') (hz : z.Sound ctx p) : z'.Sound ctx p := by
  obtain ⟨hopened, hforce, hnodes⟩ := hz
  cases h with
  | @stands opened d d' nodes b role block =>
    obtain ⟨hfollows, hassigned⟩ := Block.ofToken_eq_ok (Template.placed_eq_ok_iff.1 block)
    refine ⟨hopened, ?_, hnodes.concat hforce (.leaf hfollows) nofun⟩
    rw [Node.settings_concat]
    exact hforce.setAll hassigned
  | opens role named =>
    exact ⟨.cons hopened role named hforce hnodes nofun, hforce.enter, settled_nil⟩
  | @divides b outer d nodes role undivided =>
    cases hopened with
    | cons around opens named force before main =>
      refine ⟨.cons around opens named force before fun m hm => ?_, force.enter, settled_nil⟩
      cases hm
      exact ⟨hnodes, role⟩
  | @closes b outer d nodes role =>
    have hclosed := hopened.closed hnodes role
    cases hopened with
    | cons around _ _ force =>
      refine ⟨around, ?_, hclosed⟩
      rw [Node.settings_concat, b.assigned_closed, List.append_nil]
      exact force

theorem Draft.sound_start {d : Defaults} (h : Defaults.initial ctx p = .ok d) :
    Draft.Sound ctx p ⟨[], d, []⟩ :=
  ⟨.nil, Place.inForce_initial h, settled_nil⟩

end

/-- The blocks of a compiled text, at any depth, follow the style and the bundle in force where they
stand: those set last before them in their own list, else in the lists around it from the innermost
on, else those of the preamble, else those of the template's id. -/
theorem Template.ofText_scoped {ctx : TemplateContext} {text : String} {p : Prepared} {t : Template}
    (hprepared : Prepared.ofText text = .ok p) (hnormal : p.settings.inverted = false)
    (hcompiled : ofText ctx text = .ok t) :
    ∃ nodes, (Scanner.ofCursor ⟨0, p.text⟩).tokens = (Node.tokensAll nodes, none) ∧
      t.blocks = Node.blocks nodes ∧
      ∀ place n, Stands nodes place n →
        ∃ d, Place.InForce ctx p.settings place d ∧ n.Follows ctx d := by
  have hscan := Reads.of_tokens (.ofCursor ⟨0, p.text⟩)
  obtain ⟨blocks, hread, rfl⟩ := (ofText_eq_ok_iff hprepared).1 hcompiled
  simp only [readPrepared, hnormal, Bool.false_eq_true, ↓reduceIte, bind, bind_eq_ok_iff,
    placed_eq_ok_iff, Reading.readWhole_eq_run hscan] at hread
  obtain ⟨d, hdefaults, hrun⟩ := hread
  obtain ⟨he, d', nodes, hsound, htokens, rfl⟩ :=
    Draft.of_run (z := ⟨[], d, []⟩) (fun _ _ _ => Draft.Step.sound) (Draft.sound_start hdefaults)
      hrun
  refine ⟨nodes, Prod.ext htokens.symm he, rfl, fun place n hn => ?_⟩
  obtain ⟨d, hforce, hfollows⟩ := hsound.nodes place n hn
  exact ⟨d, by simpa [OpenNode.places] using hforce, hfollows⟩

theorem Template.exists_of_any {ε α : Type} {x : Except ε α} {q : α → Bool}
    (h : x.toOption.any q = true) : ∃ a, x = .ok a ∧ q a = true := by
  cases x with
  | error e => cases h
  | ok a => exact ⟨a, rfl, h⟩

/-- Settings made in the first part of a branch, the last of them for each name, hold neither in its
other part nor after it. -/
theorem Template.ofText_scoped_to_first_part :
    let ctx : TemplateContext := ⟨.source ⟨[], "t"⟩ .root none "none", .standard, ".txt"⟩
    let text := "[global escape=json][set bundle=b][if a][set escape=log escape=html bundle='']" ++
      "\x7bx\x7d[else]\x7bx\x7d[\x7bk\x7d][end][include z]"
    let expected : Template := ⟨"/t", [
      .set [⟨"bundle", "b"⟩],
      .branch .condition ⟨["a"]⟩
        [.set [⟨"escape", "log"⟩, ⟨"escape", "html"⟩, ⟨"bundle", ""⟩],
          .value ⟨["x"]⟩ ⟨"html", .markup false⟩ none]
        [.value ⟨["x"]⟩ ⟨"json", .literal .json false⟩ none,
          .resource ⟨.message "b" "k" .root "json", none⟩],
      .inclusion ⟨.source ⟨[], "z"⟩ .root (some "b") "json", none⟩]⟩
    ∃ p t, Prepared.ofText text = .ok p ∧ p.settings = ⟨false, none, some "json"⟩ ∧
      ofText ctx text = .ok t ∧ t.same expected = true ∧
      ∃ nodes, (Scanner.ofCursor ⟨0, p.text⟩).tokens = (Node.tokensAll nodes, none) ∧
        t.blocks = Node.blocks nodes ∧
        ∀ place n, Stands nodes place n →
          ∃ d, Place.InForce ctx p.settings place d ∧ n.Follows ctx d := by
  intro ctx text expected
  have hprepares : (Prepared.ofText text).toOption.any
      (fun p => p.settings = ⟨false, none, some "json"⟩) = true := by decide +kernel
  have hcompiles : (ofText ctx text).toOption.any (·.same expected) = true := by decide +kernel
  obtain ⟨p, hprepared, hp⟩ := exists_of_any hprepares
  obtain ⟨t, hcompiled, hsame⟩ := exists_of_any hcompiles
  have hsettings : p.settings = ⟨false, none, some "json"⟩ := of_decide_eq_true hp
  exact ⟨p, t, hprepared, hsettings, hcompiled, hsame,
    ofText_scoped hprepared (congrArg Preamble.inverted hsettings) hcompiled⟩

end TextTemplate
