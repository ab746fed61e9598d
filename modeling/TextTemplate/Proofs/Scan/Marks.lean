import TextTemplate.Proofs.Scan.Fresh
import TextTemplate.Proofs.Scan.Heads

/-! Marks that are written out are read back, whatever follows them. -/

namespace TextTemplate.Mark

section
variable {style path : List Char}

theorem readComment_eq_none {opening x : Char} (lead closing cs : List Char) (ofValue : Bool)
    (h : opening ≠ x) : readComment (opening :: lead) ofValue closing (x :: cs) = none := by
  rw [readComment, Text.dropLead?_cons_eq_none _ _ h, Option.bind_none]

theorem readComment_pair_eq_none {opening next : Char} {cs : List Char} (closing : List Char)
    (ofValue : Bool) (h : cs.head? ≠ some next) :
    readComment [opening, next] ofValue closing (opening :: cs) = none := by
  rw [readComment, Text.dropLead?_pair_eq_none h, Option.bind_none]

theorem readComment_append (opening closing : Char) (ofValue : Bool) {note : List Char}
    (rest : List Char) (h : '*' ∉ note) :
    readComment [opening, '*'] ofValue ['*', closing]
      (opening :: '*' :: (note ++ '*' :: closing :: rest)) = some (comment ofValue, rest) := by
  have hlead : Text.dropLead? [opening, '*'] (opening :: '*' :: (note ++ '*' :: closing :: rest)) =
      some (note ++ '*' :: closing :: rest) := Text.dropLead?_eq_some.2 rfl
  have hsplit := Text.splitAtText?_append [closing] rest h
  simp only [List.cons_append, List.nil_append] at hsplit
  simp only [readComment, hlead, Option.bind_some, hsplit, Option.map_some]

theorem readValue_append (rest : List Char) (hhead : style.head?.any Char.isAlpha = true)
    (hstyle : ∀ c ∈ style, isStyleChar c = true) (hpath : isPath path = true)
    (hplain : ∀ c ∈ path, c ∉ ['{', '}', ',', '>']) :
    readValue ('{' :: (style ++ ':' :: (path ++ '}' :: rest))) =
      some (value (some (String.ofList style)) (String.ofList path) none, rest) := by
  have hbraces : ∀ c ∈ path, c ≠ '{' ∧ c ≠ '}' := fun c hc => by
    have := hplain c hc
    simp_all
  have hcomma : splitComma? path = none := Text.splitFirst?_eq_none fun c hc => by
    have := hplain c hc
    simp_all
  simp only [readValue, readStyle_append _ hhead hstyle, readBraced_append rest hbraces,
    Option.bind_some, hcomma, hpath, ↓reduceIte]

theorem readHereDocument_value (rest : List Char) (hhead : style.head?.any Char.isAlpha = true)
    (hstyle : ∀ c ∈ style, isStyleChar c = true)
    (hplain : ∀ c ∈ path, c ∉ ['{', '}', ',', '>']) :
    readHereDocument ('{' :: (style ++ ':' :: (path ++ '}' :: rest))) = none := by
  have hbraces : ∀ c ∈ path, c ≠ '{' ∧ c ≠ '}' := fun c hc => by
    have := hplain c hc
    simp_all
  apply readHereDocument_eq_none (readStyle_append _ hhead hstyle) hbraces
  rintro before marker rfl
  simpa using hplain '>' (by simp)

/-- The head of a here-document without a path. -/
theorem readHereDocument_append {marker : List Char} (rest : List Char)
    (hhead : style.head?.any Char.isAlpha = true) (hstyle : ∀ c ∈ style, isStyleChar c = true)
    (hmarker : Text.isName marker = true) :
    readHereDocument ('{' :: (style ++ ':' :: ('>' :: '>' :: marker ++ '}' :: rest))) =
      some (hereDocument (some (String.ofList style)) none none none (String.ofList marker),
        rest) := by
  have hread : readStyle (style ++ ':' :: ('>' :: '>' :: marker ++ '}' :: rest)) =
      (some (String.ofList style), [] ++ '>' :: '>' :: (marker ++ '}' :: rest)) :=
    readStyle_append _ hhead hstyle
  exact readHereDocument_of_head hread unbraced_nil hmarker rfl

end

/-- A parameter that is over at the next closing bracket: it has none outside of quotes, and all of
its quotes are closed. -/
inductive Enclosed : List Char → Prop
  | nil : Enclosed []
  | plain {c : Char} {cs : List Char} (bracket : c ≠ ']') (quote : c ≠ '\'') (rest : Enclosed cs) :
      Enclosed (c :: cs)
  | quoted {text cs : List Char} (inside : '\'' ∉ text) (rest : Enclosed cs) :
      Enclosed ('\'' :: (text ++ '\'' :: cs))

theorem Enclosed.of_plain {cs : List Char} (h : ∀ c ∈ cs, c ≠ ']' ∧ c ≠ '\'') : Enclosed cs := by
  induction cs with
  | nil => exact .nil
  | cons c cs ih =>
    obtain ⟨hc, hcs⟩ := List.forall_mem_cons.1 h
    exact .plain hc.1 hc.2 (ih hcs)

theorem Enclosed.append {a b : List Char} (ha : Enclosed a) (hb : Enclosed b) :
    Enclosed (a ++ b) := by
  induction ha with
  | nil => exact hb
  | plain bracket quote _ ih => exact .plain bracket quote ih
  | @quoted text cs inside _ ih =>
    rw [List.cons_append, List.append_assoc]
    exact .quoted inside ih

/-- What stands in quotes is passed over. -/
theorem splitBracket?_quoted {text : List Char} (cs : List Char) (h : '\'' ∉ text) :
    splitBracket? true (text ++ '\'' :: cs) =
      (splitBracket? false cs).map fun (a, b) => (text ++ '\'' :: a, b) := by
  induction text with
  | nil => rfl
  | cons c text ih =>
    simp only [List.mem_cons, not_or] at h
    have hquote : c ≠ '\'' := fun heq => h.1 heq.symm
    rw [List.cons_append, splitBracket?, if_neg (by simp), if_neg hquote, ih h.2, Option.map_map]
    rfl

theorem splitBracket?_append {param : List Char} (rest : List Char) (h : Enclosed param) :
    splitBracket? false (param ++ ']' :: rest) = some (param, rest) := by
  induction h with
  | nil => rfl
  | plain bracket quote _ ih =>
    rw [List.cons_append, splitBracket?, if_neg (by simp [bracket]), if_neg quote, ih]
    rfl
  | @quoted text cs inside _ ih =>
    rw [List.cons_append, List.append_assoc, List.cons_append, splitBracket?, if_neg (by simp),
      if_pos rfl, Bool.not_false, splitBracket?_quoted _ inside, ih]
    rfl

theorem readNamed?_append (name : String) {param : List Char} (rest : List Char)
    (hend : (param ++ [']']).head?.any Text.isWordChar = false) (h : Enclosed param) :
    readNamed? name (name.toList ++ (param ++ ']' :: rest)) = some (Text.trim param, rest) := by
  have hlead : Text.dropLead? name.toList (name.toList ++ (param ++ ']' :: rest)) =
      some (param ++ ']' :: rest) := Text.dropLead?_eq_some.2 rfl
  have hhead : (param ++ ']' :: rest).head? = (param ++ [']']).head? := by
    cases param <;> rfl
  simp only [readNamed?, hlead, Option.bind_some, hhead, hend, Bool.false_eq_true, ↓reduceIte,
    splitBracket?_append rest h, Option.map_some]

/-- No name of a directive begins with another one. -/
theorem readNamed?_eq_none {name other : String} (rest : List Char) (hname : name ∈ directiveNames)
    (hother : other ∈ directiveNames) (hne : other ≠ name) :
    readNamed? other (name.toList ++ rest) = none := by
  have hapart : ∀ a ∈ directiveNames, ∀ b ∈ directiveNames, a ≠ b → ¬ a.toList <+: b.toList := by
    decide
  rw [readNamed?, Text.dropLead?_append_eq_none rest (hapart other hother name hname hne)
    (hapart name hname other hother hne.symm), Option.bind_none]

theorem readDirective_append {name : String} {param : List Char} (rest : List Char)
    (hname : name ∈ directiveNames) (hend : (param ++ [']']).head?.any Text.isWordChar = false)
    (h : Enclosed param) :
    readDirective ('[' :: (name.toList ++ (param ++ ']' :: rest))) =
      some (directive name (String.ofList (Text.trim param)), rest) := by
  obtain ⟨before, after, hnames, hfirst⟩ := List.eq_append_cons_of_mem hname
  refine List.findSome?_eq_some_iff.2 ⟨before, name, after, hnames, ?_, fun other hother => ?_⟩
  · rw [readNamed?_append name rest hend h, Option.map_some]
  · have hmem : other ∈ directiveNames := by simp [hnames, hother]
    have hne : other ≠ name := fun heq => hfirst (heq ▸ hother)
    rw [readNamed?_eq_none _ hname hmem hne, Option.map_none]

end TextTemplate.Mark

namespace TextTemplate.MarkKind

/-- After a bracket, only a star or a brace lets another kind than directives read. -/
theorem findSome?_read?_bracket {cs : List Char} (hstar : cs.head? ≠ some '*')
    (hbrace : cs.head? ≠ some '{') :
    all.findSome? (·.read? ('[' :: cs)) = Mark.readDirective ('[' :: cs) := by
  have hcomment : Mark.readComment ['[', '*'] false ['*', ']'] ('[' :: cs) = none :=
    Mark.readComment_pair_eq_none _ _ hstar
  have hvalueComment : Mark.readComment ['{', '*'] true ['*', '}'] ('[' :: cs) = none :=
    Mark.readComment_eq_none _ _ _ _ (by decide)
  have hresource : Mark.readResource ('[' :: cs) = none := by
    rw [Mark.readResource, Text.dropLead?_pair_eq_none hbrace, Option.bind_none]
  simp only [all, List.findSome?_cons, List.findSome?_nil, read?, hcomment, hvalueComment,
    hresource, Mark.readHereDocument, Mark.readValue]
  cases Mark.readDirective ('[' :: cs) <;> rfl

/-- After a brace, only a star or arrows let another kind than values read. -/
theorem findSome?_read?_brace {cs : List Char} (hstar : cs.head? ≠ some '*')
    (harrows : Mark.readHereDocument ('{' :: cs) = none) :
    all.findSome? (·.read? ('{' :: cs)) = Mark.readValue ('{' :: cs) := by
  have hcomment : Mark.readComment ['[', '*'] false ['*', ']'] ('{' :: cs) = none :=
    Mark.readComment_eq_none _ _ _ _ (by decide)
  have hvalueComment : Mark.readComment ['{', '*'] true ['*', '}'] ('{' :: cs) = none :=
    Mark.readComment_pair_eq_none _ _ hstar
  have hresource : Mark.readResource ('{' :: cs) = none := by
    simp [Mark.readResource, Text.dropLead?]
  simp only [all, List.findSome?_cons, List.findSome?_nil, read?, hcomment, hvalueComment,
    hresource, harrows, Mark.readDirective]
  cases Mark.readValue ('{' :: cs) <;> rfl

theorem findSome?_read?_directive (name : String) (param rest : List Char)
    (hname : name ∈ Mark.directiveNames)
    (hend : (param ++ [']']).head?.any Text.isWordChar = false) (h : Mark.Enclosed param) :
    all.findSome? (·.read? ('[' :: (name.toList ++ (param ++ ']' :: rest)))) =
      some (.directive name (String.ofList (Text.trim param)), rest) := by
  have hheads : ∀ name ∈ Mark.directiveNames, name.toList.head?.any Char.isAlpha = true := by
    decide
  have hhead (c : Char) (hc : c.isAlpha = false) :
      (name.toList ++ (param ++ ']' :: rest)).head? ≠ some c :=
    Text.head?_append_ne _ (hheads name hname) hc
  rw [findSome?_read?_bracket (hhead '*' (by decide)) (hhead '{' (by decide)),
    Mark.readDirective_append rest hname hend h]

theorem findSome?_read?_value {style path : List Char} (rest : List Char)
    (hhead : style.head?.any Char.isAlpha = true) (hstyle : ∀ c ∈ style, Mark.isStyleChar c = true)
    (hpath : Mark.isPath path = true) (hplain : ∀ c ∈ path, c ∉ ['{', '}', ',', '>']) :
    all.findSome? (·.read? ('{' :: (style ++ ':' :: (path ++ '}' :: rest)))) =
      some (.value (some (String.ofList style)) (String.ofList path) none, rest) := by
  have hstar : (style ++ ':' :: (path ++ '}' :: rest)).head? ≠ some '*' :=
    Text.head?_append_ne _ hhead (by decide)
  rw [findSome?_read?_brace hstar (Mark.readHereDocument_value rest hhead hstyle hplain),
    Mark.readValue_append rest hhead hstyle hpath hplain]

/-- After a brace without a star, here-documents come first. -/
theorem findSome?_read?_of_readHereDocument {cs : List Char} {r : Mark × List Char}
    (hstar : cs.head? ≠ some '*') (hread : Mark.readHereDocument ('{' :: cs) = some r) :
    all.findSome? (·.read? ('{' :: cs)) = some r := by
  have hcomment : Mark.readComment ['[', '*'] false ['*', ']'] ('{' :: cs) = none :=
    Mark.readComment_eq_none _ _ _ _ (by decide)
  have hvalueComment : Mark.readComment ['{', '*'] true ['*', '}'] ('{' :: cs) = none :=
    Mark.readComment_pair_eq_none _ _ hstar
  simp only [all, List.findSome?_cons, read?, hcomment, hvalueComment, hread]

theorem findSome?_read?_hereDocument {style marker : List Char} (rest : List Char)
    (hhead : style.head?.any Char.isAlpha = true) (hstyle : ∀ c ∈ style, Mark.isStyleChar c = true)
    (hmarker : Text.isName marker = true) :
    all.findSome? (·.read? ('{' :: (style ++ ':' :: ('>' :: '>' :: marker ++ '}' :: rest)))) =
      some (.hereDocument (some (String.ofList style)) none none none (String.ofList marker),
        rest) :=
  findSome?_read?_of_readHereDocument (Text.head?_append_ne _ hhead (by decide))
    (Mark.readHereDocument_append rest hhead hstyle hmarker)

theorem findSome?_read?_comment (ofValue : Bool) {note : List Char} (rest : List Char)
    (h : '*' ∉ note) :
    all.findSome? (·.read? ((if ofValue then '{' else '[') :: '*' ::
      (note ++ '*' :: (if ofValue then '}' else ']') :: rest))) =
      some (.comment ofValue, rest) := by
  cases ofValue with
  | false =>
    have hread := Mark.readComment_append '[' ']' false rest h
    simp only [Bool.false_eq_true, ↓reduceIte, all, List.findSome?_cons, read?, hread]
  | true =>
    have hread := Mark.readComment_append '{' '}' true rest h
    have hcomment (cs : List Char) :
        Mark.readComment ['[', '*'] false ['*', ']'] ('{' :: cs) = none :=
      Mark.readComment_eq_none _ _ _ _ (by decide)
    simp only [↓reduceIte, all, List.findSome?_cons, read?, hread, hcomment]

/-- A mark that stands at a place is the earliest from there on. -/
theorem earliest?_of_read {kinds : List MarkKind} {c : Cursor} {m : Mark} {rest : List Char}
    (h : kinds.findSome? (·.read? c.rest) = some (m, rest)) :
    earliest? kinds c = some ⟨c, c.moveTo rest, m⟩ := by
  refine earliest?_eq_some_iff.2 ⟨.refl c, fun d hd hlt => ?_, ?_⟩
  · have := hd.offset_le
    simp only at hlt
    omega
  · have hmap := congrArg (Option.map fun (r : Mark × List Char) =>
      (⟨c, c.moveTo r.2, r.1⟩ : Occurrence)) h
    rw [List.map_findSome?] at hmap
    exact hmap

theorem at?_eq_none_of_text {k : MarkKind} {n : Nat} {x : Char} {cs : List Char}
    (hbracket : x ≠ '[') (hbrace : x ≠ '{') : k.at? ⟨n, x :: cs⟩ = none := by
  cases hread : k.read? (x :: cs) with
  | none => simp [at?, hread]
  | some r =>
    obtain ⟨taken, htaken⟩ := read?_eq_append hread
    obtain ⟨rfl, _⟩ := List.cons_eq_cons.1 htaken
    cases k <;> simp [opening] at hbracket hbrace

/-- Where text has no opening character, the next mark is the one after it. -/
theorem earliest?_append (kinds : List MarkKind) (n : Nat) {a : List Char} (rest : List Char)
    (h : ∀ c ∈ a, c ≠ '[' ∧ c ≠ '{') :
    earliest? kinds ⟨n, a ++ rest⟩ = earliest? kinds ⟨n + Text.utf8Length a, rest⟩ := by
  induction a generalizing n with
  | nil => rfl
  | cons x a ih =>
    obtain ⟨hx, ha⟩ := List.forall_mem_cons.1 h
    have hskip : earliest? kinds ⟨n, x :: (a ++ rest)⟩ =
        earliest? kinds ⟨n + x.utf8Size, a ++ rest⟩ := by
      simp only [earliest?, find?_cons, at?_eq_none_of_text hx.1 hx.2, Option.none_or]
    rw [List.cons_append, hskip, ih _ ha, Text.utf8Length, Nat.add_assoc]

theorem earliest?_nil (kinds : List MarkKind) (n : Nat) : earliest? kinds ⟨n, []⟩ = none := by
  refine Occurrence.first_eq_none.2 fun o ho => ?_
  obtain ⟨k, _, rfl⟩ := List.mem_map.1 ho
  exact find?_nil k n

end TextTemplate.MarkKind
