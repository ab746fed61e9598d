import TextTemplate.Proofs.Value.Fields
import TextTemplate.Source.Properties

/-! Bundles of messages read back. However the messages are laid out, with blank lines and comments
between them and with their lines broken, the bundle holds what was written, and of the messages of
one key the last. -/

namespace TextTemplate

namespace Text
variable {line : List Char}

/-- A line feed ends a line, and other lines follow. -/
theorem lines_append (rest : List Char) (h : '\n' ∉ line) :
    lines (line ++ '\n' :: rest) = dropCarriageReturn line :: lines rest := by
  have hwithin : ∀ c ∈ line, decide (c = '\n') = false := by
    intro c hc
    exact decide_eq_false fun heq => h (heq ▸ hc)
  have hpieces : pieces (· = '\n') (line ++ '\n' :: rest) = line :: pieces (· = '\n') rest :=
    pieces_append rest hwithin (by decide)
  obtain ⟨first, others, hrest⟩ := List.exists_cons_of_ne_nil (pieces_ne_nil (· = '\n') rest)
  simp only [lines, hpieces, hrest, List.dropLast_cons_cons, List.map_cons, List.cons_append,
    List.getLast?_cons_cons]

theorem dropCarriageReturn_eq_self (h : line.getLast? ≠ some '\r') :
    dropCarriageReturn line = line := if_neg h

theorem dropCarriageReturn_concat (line : List Char) :
    dropCarriageReturn (line ++ ['\r']) = line := by
  rw [dropCarriageReturn, if_pos (by simp), List.dropLast_concat]

/-- The carriage return is looked for behind everything else. -/
theorem dropCarriageReturn_append (before : List Char) (h : line ≠ []) :
    dropCarriageReturn (before ++ line) = before ++ dropCarriageReturn line := by
  rw [dropCarriageReturn, dropCarriageReturn, List.getLast?_append_of_ne_nil before h]
  split
  · exact List.dropLast_append_of_ne_nil h
  · rfl

theorem mem_of_mem_dropCarriageReturn {c : Char} (h : c ∈ dropCarriageReturn line) : c ∈ line := by
  rw [dropCarriageReturn] at h
  split at h
  · exact List.dropLast_subset line h
  · exact h

end Text

namespace Properties

/-! ### How a bundle is written -/

/-- Blanks within a line. -/
def IsGap (cs : List Char) : Prop := ∀ c ∈ cs, Text.isBlank c = true ∧ c ≠ '\n'

inductive LineEnd where
  | feed
  | returnFeed

def LineEnd.text : LineEnd → List Char
  | .feed => ['\n']
  | .returnFeed => ['\r', '\n']

/-- A key and a value that a line can hold. -/
structure Message where
  key : String
  value : String
  key_ne : key ≠ ""
  key_head : key.toList.head?.any Text.isBlank = false
  key_last : key.toList.getLast?.any Text.isBlank = false
  key_plain : ∀ c ∈ key.toList, c ≠ '\n' ∧ c ≠ '=' ∧ c ≠ ':'
  key_mark : key.toList.head? ≠ some '#' ∧ key.toList.head? ≠ some '!'
  value_head : value.toList.head?.any Text.isBlank = false
  value_line : '\n' ∉ value.toList
  value_last : value.toList.getLast? ≠ some '\r' ∧ value.toList.getLast? ≠ some '\\'

/-- Blanks may stand on both sides of what separates the key from its value. -/
def Message.line (m : Message) (before : List Char) (separator : Char) (after : List Char) :
    List Char :=
  m.key.toList ++ before ++ separator :: (after ++ m.value.toList)

/-- A line as it is written: whole, or broken after the character `c`, which is no blank, with a
backslash, a line end and an indentation. What goes on there begins with no blank either. -/
inductive Broken : List Char → List Char → Prop where
  | whole (line : List Char) : Broken line line
  | cut {start rest indent written : List Char} {c d : Char} (lineEnd : LineEnd) :
    Text.isBlank c = false → Text.isBlank d = false → IsGap indent → Broken (d :: rest) written →
    Broken (start ++ c :: d :: rest) (start ++ c :: '\\' :: (lineEnd.text ++ (indent ++ written)))

/-- The texts that hold these messages, one after the other. -/
inductive Written : List Message → List Char → Prop where
  | nil : Written [] []
  | blank {messages : List Message} {gap text : List Char} (lineEnd : LineEnd) :
    IsGap gap → Written messages text → Written messages (gap ++ (lineEnd.text ++ text))
  | comment {messages : List Message} {indent comment text : List Char} {mark : Char}
    (lineEnd : LineEnd) :
    IsGap indent → mark = '#' ∨ mark = '!' → '\n' ∉ comment → Written messages text →
    Written messages (indent ++ mark :: comment ++ (lineEnd.text ++ text))
  | message {messages : List Message} {before after written text : List Char} {separator : Char}
    (m : Message) (lineEnd : LineEnd) :
    IsGap before → separator = '=' ∨ separator = ':' → IsGap after →
    Broken (m.line before separator after) written →
    Written messages text → Written (m :: messages) (written ++ (lineEnd.text ++ text))

/-! ### What is left of a line -/

/-- What a reader gets of a line that ends like this. -/
def LineEnd.left : LineEnd → List Char → List Char
  | .feed, line => Text.dropCarriageReturn line
  | .returnFeed, line => line

section
variable (lineEnd : LineEnd) {line : List Char}

theorem LineEnd.lines_append (line text : List Char) (h : '\n' ∉ line) :
    Text.lines (line ++ (lineEnd.text ++ text)) = lineEnd.left line :: Text.lines text := by
  cases lineEnd with
  | feed => exact Text.lines_append text h
  | returnFeed =>
    have hreturn : '\n' ∉ line ++ ['\r'] := by simp [h]
    have hlines := Text.lines_append text hreturn
    rwa [Text.dropCarriageReturn_concat, List.append_assoc] at hlines

theorem LineEnd.left_append (before : List Char) (h : line ≠ []) :
    lineEnd.left (before ++ line) = before ++ lineEnd.left line := by
  cases lineEnd with
  | feed => exact Text.dropCarriageReturn_append before h
  | returnFeed => rfl

theorem LineEnd.left_eq_self (h : line.getLast? ≠ some '\r') : lineEnd.left line = line := by
  cases lineEnd with
  | feed => exact Text.dropCarriageReturn_eq_self h
  | returnFeed => rfl

theorem LineEnd.left_cons {c : Char} (h : c ≠ '\r') (line : List Char) :
    lineEnd.left (c :: line) = c :: lineEnd.left line := by
  by_cases hline : line = []
  · subst hline
    have hnil : lineEnd.left [] = [] := lineEnd.left_eq_self (by simp)
    rw [hnil]
    exact lineEnd.left_eq_self (by simpa using h)
  · exact lineEnd.left_append [c] hline

theorem LineEnd.mem_of_mem_left {c : Char} (h : c ∈ lineEnd.left line) : c ∈ line := by
  cases lineEnd with
  | feed => exact Text.mem_of_mem_dropCarriageReturn h
  | returnFeed => exact h

end

/-! ### What is read of a written line -/

theorem ne_of_isBlank_eq_false {c d : Char} (hc : Text.isBlank c = false)
    (hd : Text.isBlank d = true) : c ≠ d := by
  rintro rfl
  rw [hd] at hc
  cases hc

theorem isGap_nil : IsGap [] := by simp [IsGap]

theorem IsGap.blank {gap : List Char} (h : IsGap gap) : ∀ c ∈ gap, Text.isBlank c = true :=
  fun c hc => (h c hc).1

theorem IsGap.not_mem {gap : List Char} (h : IsGap gap) : '\n' ∉ gap := fun hmem => (h _ hmem).2 rfl

/-- Where a line is broken, the lines after it are read on to its end. -/
theorem Broken.continued_eq {line written : List Char} (h : Broken line written)
    (hline : '\n' ∉ line) {first : Char} (hhead : line.head? = some first)
    (hfirst : Text.isBlank first = false) (lineEnd : LineEnd)
    (hlast : (lineEnd.left line).getLast? ≠ some '\\') {indent : List Char} (hindent : IsGap indent)
    (text : List Char) :
    ∃ next others,
      Text.lines (indent ++ (written ++ (lineEnd.text ++ text))) = next :: others ∧
      (Text.trimStart next).head? = some first ∧
      ∀ kept, continued (kept ++ Text.trimStart next) others =
        (kept ++ lineEnd.left line, Text.lines text) := by
  induction h generalizing first indent with
  | whole line =>
    obtain ⟨rest, rfl⟩ : ∃ rest, line = first :: rest := by
      cases line with
      | nil => cases hhead
      | cons c rest => exact ⟨rest, by rw [Option.some.inj hhead]⟩
    have hreturn : first ≠ '\r' := ne_of_isBlank_eq_false hfirst (by decide)
    have hnext : Text.trimStart (lineEnd.left (indent ++ first :: rest)) =
        lineEnd.left (first :: rest) := by
      rw [lineEnd.left_append indent (by simp), lineEnd.left_cons hreturn]
      exact Text.trimStart_append hindent.blank hfirst
    have hlines := lineEnd.lines_append (indent ++ first :: rest) text
      (by simpa using ⟨hindent.not_mem, by simpa using hline⟩)
    rw [List.append_assoc] at hlines
    refine ⟨_, _, hlines, ?_, fun kept => ?_⟩
    · rw [hnext, lineEnd.left_cons hreturn]
      rfl
    · have hkept : (kept ++ lineEnd.left (first :: rest)).getLast? ≠ some '\\' := by
        rw [List.getLast?_append_of_ne_nil kept (by simp [lineEnd.left_cons hreturn])]
        exact hlast
      rw [hnext]
      cases Text.lines text with
      | nil => rw [continued, if_neg hkept]
      | cons other others => rw [continued, if_neg hkept]
  | @cut start rest indent' written c d lineEnd' hc hd hindent' _ ih =>
    have hleft : lineEnd.left (start ++ c :: d :: rest) =
        start ++ [c] ++ lineEnd.left (d :: rest) := by
      rw [← lineEnd.left_append _ (by simp), List.append_assoc]
      rfl
    have hne : lineEnd.left (d :: rest) ≠ [] := by
      simp [lineEnd.left_cons (ne_of_isBlank_eq_false hd (by decide : Text.isBlank '\r' = true))]
    simp only [List.mem_append, List.mem_cons, not_or] at hline
    obtain ⟨hstart, hc', hrest⟩ := hline
    rw [hleft, List.getLast?_append_of_ne_nil _ hne] at hlast
    obtain ⟨next, others, hlines, -, hcontinued⟩ :=
      ih (by simpa using hrest) rfl hd hlast hindent'
    -- The broken line itself is read without its indentation.
    have hbegun : (start ++ [c, '\\']).head? = some first := by
      cases start with
      | nil => exact hhead
      | cons x start => exact hhead
    have htrim : Text.trimStart (indent ++ (start ++ [c, '\\'])) = start ++ [c, '\\'] :=
      Text.trimStart_append hindent.blank (by rw [hbegun]; exact hfirst)
    have hbroken := lineEnd'.lines_append (indent ++ (start ++ [c, '\\']))
      (indent' ++ (written ++ (lineEnd.text ++ text)))
      (by simpa using ⟨hindent.not_mem, hstart, hc'⟩)
    rw [lineEnd'.left_eq_self (by simp), hlines] at hbroken
    refine ⟨_, _, by simpa using hbroken, by rw [htrim, hbegun], fun kept => ?_⟩
    have hmark : (kept ++ (start ++ [c, '\\'])).getLast? = some '\\' := by simp
    have hdropped : (kept ++ (start ++ [c, '\\'])).dropLast = kept ++ (start ++ [c]) := by
      rw [List.dropLast_append_of_ne_nil (by simp), List.dropLast_append_of_ne_nil (by simp)]
      rfl
    rw [htrim, continued, if_pos hmark, hdropped, hcontinued, hleft, List.append_assoc]

section
variable (m : Message) {before after : List Char} {separator : Char} (hbefore : IsGap before)
  (hseparator : separator = '=' ∨ separator = ':') (hafter : IsGap after) (lineEnd : LineEnd)

include hseparator in
/-- What the line end can take away stands behind the separator. -/
theorem Message.left_line : lineEnd.left (m.line before separator after) =
    m.key.toList ++ before ++ separator :: lineEnd.left (after ++ m.value.toList) := by
  have hreturn : separator ≠ '\r' := by rcases hseparator with rfl | rfl <;> decide
  rw [Message.line, lineEnd.left_append _ (by simp), lineEnd.left_cons hreturn]

include hafter in
/-- A carriage return that the line end takes away is a blank before an empty value. -/
theorem Message.left_value : ∃ gap : List Char, (∀ c ∈ gap, Text.isBlank c = true) ∧
    lineEnd.left (after ++ m.value.toList) = gap ++ m.value.toList := by
  by_cases hvalue : m.value.toList = []
  · refine ⟨lineEnd.left after, fun c hc => hafter.blank c (lineEnd.mem_of_mem_left hc), ?_⟩
    rw [hvalue, List.append_nil, List.append_nil]
  · refine ⟨after, hafter.blank, ?_⟩
    rw [lineEnd.left_append after hvalue, lineEnd.left_eq_self m.value_last.1]

include hbefore hseparator hafter in
theorem Message.entry_line :
    entry (lineEnd.left (m.line before separator after)) = (m.key, m.value) := by
  obtain ⟨gap, hgap, hvalue⟩ := m.left_value hafter lineEnd
  have hkey : ∀ c ∈ m.key.toList ++ before, decide (c = '=' ∨ c = ':') = false := by
    intro c hc
    rcases List.mem_append.1 hc with hc | hc
    · obtain ⟨-, hequals, hcolon⟩ := m.key_plain c hc
      exact decide_eq_false (not_or.2 ⟨hequals, hcolon⟩)
    · refine decide_eq_false fun heq => ?_
      have hblank := hbefore.blank c hc
      rcases heq with rfl | rfl <;> cases hblank
  rw [m.left_line hseparator, hvalue, entry,
    Text.splitFirst?_append _ hkey (decide_eq_true hseparator)]
  have htrim : Text.trim (m.key.toList ++ before) = m.key.toList := by
    have hnone : ∀ c ∈ ([] : List Char), Text.isBlank c = true := by simp
    exact Text.trim_surrounded hnone hbefore.blank
      (Text.trim_eq_self_iff.2 ⟨m.key_head, m.key_last⟩)
  simp only [Option.getD_some, htrim, Text.trimStart_append hgap m.value_head, String.ofList_toList]

include hseparator hafter in
theorem Message.last_line :
    (lineEnd.left (m.line before separator after)).getLast? ≠ some '\\' := by
  obtain ⟨gap, hgap, hvalue⟩ := m.left_value hafter lineEnd
  rw [m.left_line hseparator, hvalue, List.getLast?_append_of_ne_nil _ (by simp)]
  by_cases hempty : m.value.toList = []
  · intro hlast
    have hmem := List.mem_of_getLast? hlast
    rw [hempty, List.append_nil, List.mem_cons] at hmem
    rcases hmem with heq | hmem
    · rcases hseparator with rfl | rfl <;> cases heq
    · cases hgap _ hmem
  · rw [← List.cons_append, List.getLast?_append_of_ne_nil _ hempty]
    exact m.value_last.2

include hbefore hseparator hafter in
theorem Message.not_mem_line : '\n' ∉ m.line before separator after := by
  have hkey : '\n' ∉ m.key.toList := fun h => (m.key_plain _ h).1 rfl
  have hmark : '\n' ≠ separator := by rcases hseparator with rfl | rfl <;> decide
  simp [Message.line, hkey, hbefore.not_mem, hmark, hafter.not_mem, m.value_line]

end

/-- The lines of a message are read as its entry, and reading goes on after them. -/
theorem entries_message (m : Message) {before after written : List Char} {separator : Char}
    (lineEnd : LineEnd) (hbefore : IsGap before) (hseparator : separator = '=' ∨ separator = ':')
    (hafter : IsGap after) (hwritten : Broken (m.line before separator after) written)
    (text : List Char) :
    entries (Text.lines (written ++ (lineEnd.text ++ text))) =
      (m.key, m.value) :: entries (Text.lines text) := by
  obtain ⟨first, key, hkey⟩ := List.exists_cons_of_ne_nil
    (fun h => m.key_ne (String.toList_eq_nil_iff.1 h) : m.key.toList ≠ [])
  have hhead : (m.line before separator after).head? = some first := by
    rw [Message.line, hkey]
    rfl
  have hfirst : Text.isBlank first = false := by
    have hblank := m.key_head
    rwa [hkey] at hblank
  have hmarks := m.key_mark
  rw [hkey] at hmarks
  obtain ⟨next, others, hlines, hbegun, hcontinued⟩ :=
    hwritten.continued_eq (m.not_mem_line hbefore hseparator hafter) hhead hfirst lineEnd
      (m.last_line hseparator hafter lineEnd) isGap_nil text
  have hread := hcontinued []
  rw [List.nil_append, List.nil_append] at hread
  have hkept : isSkipped (Text.trimStart next) = false := by
    obtain ⟨rest, hnext⟩ := List.head?_eq_some_iff.1 hbegun
    rw [hnext]
    simpa [isSkipped] using hmarks
  rw [List.nil_append] at hlines
  rw [hlines, entries, if_neg (by rw [hkept]; exact Bool.false_ne_true), hread,
    m.entry_line hbefore hseparator hafter]

/-- Lines that hold nothing are passed over. -/
theorem entries_skipped {line : List Char} (lineEnd : LineEnd) (hline : '\n' ∉ line)
    (hskipped : isSkipped (Text.trimStart (lineEnd.left line)) = true) (text : List Char) :
    entries (Text.lines (line ++ (lineEnd.text ++ text))) = entries (Text.lines text) := by
  rw [lineEnd.lines_append line text hline, entries, if_pos hskipped]

theorem Written.entries_eq {messages : List Message} {text : List Char}
    (h : Written messages text) :
    entries (Text.lines text) = messages.map fun m => (m.key, m.value) := by
  induction h with
  | nil => simp [Text.lines, Text.pieces, entries]
  | @blank messages gap text lineEnd hgap _ ih =>
    have hblank : ∀ c ∈ lineEnd.left gap, Text.isBlank c = true :=
      fun c hc => hgap.blank c (lineEnd.mem_of_mem_left hc)
    have hnone : Text.trimStart (lineEnd.left gap) = [] := by
      simpa using Text.trimStart_append hblank (rfl : ([] : List Char).head?.any _ = false)
    rw [entries_skipped lineEnd hgap.not_mem (by rw [hnone]; rfl), ih]
  | @comment messages indent comment text mark lineEnd hindent hmark hcomment _ ih =>
    have hplain : Text.isBlank mark = false := by rcases hmark with rfl | rfl <;> rfl
    have hfeed : '\n' ≠ mark := (ne_of_isBlank_eq_false hplain (by decide)).symm
    have hbegun : Text.trimStart (lineEnd.left (indent ++ mark :: comment)) =
        mark :: lineEnd.left comment := by
      rw [lineEnd.left_append indent (by simp),
        lineEnd.left_cons (ne_of_isBlank_eq_false hplain (by decide))]
      exact Text.trimStart_append hindent.blank hplain
    rw [entries_skipped lineEnd (by simp [hindent.not_mem, hfeed, hcomment])
      (by rw [hbegun]; simpa [isSkipped] using hmark), ih]
  | message m lineEnd hbefore hseparator hafter hwritten _ ih =>
    rw [entries_message m lineEnd hbefore hseparator hafter hwritten, ih, List.map_cons]

/-- Any messages can be written down. -/
theorem exists_written (messages : List Message) : ∃ text, Written messages text := by
  induction messages with
  | nil => exact ⟨[], .nil⟩
  | cons m messages ih =>
    obtain ⟨text, htext⟩ := ih
    exact ⟨_, .message m .feed isGap_nil (.inl rfl) isGap_nil (.whole _) htext⟩

/-- However messages are written down, the bundle has of each key what its last message says, and no
other keys. -/
theorem Written.messages_read_back {messages : List Message} {text : String}
    (h : Written messages text.toList) (key : String) :
    (ofText text).get? key = (messages.reverse.find? (·.key = key)).map (·.value) := by
  rw [ofText, Fields.get?_ofPairs, h.entries_eq, ← List.map_reverse]
  induction messages.reverse with
  | nil => rfl
  | cons m rest ih =>
    by_cases hkey : m.key = key
    · simp [Fields.get?, hkey]
    · simp [Fields.get?, hkey, ih]

/-- A comment that looks as if it went on, a key that comes twice, and a line that goes on with what
looks like a comment. -/
theorem Written.messages_read_back_twice :
    (ofText " # \\\na = 1\r\n\nb:x\\\r\n\t#2\na=3 \n").get? "a" = some "3 " := by
  let first : Message :=
    ⟨"a", "1", by decide, rfl, rfl, by simp, by decide, rfl, by decide, by decide⟩
  let other : Message :=
    ⟨"b", "x#2", by decide, rfl, rfl, by simp, by decide, rfl, by decide, by decide⟩
  let last : Message :=
    ⟨"a", "3 ", by decide, rfl, rfl, by simp, by decide, rfl, by decide, by decide⟩
  have hspace : IsGap [' '] := by simpa [IsGap] using by decide
  have htab : IsGap ['\t'] := by simpa [IsGap] using by decide
  have hlast := Written.message last .feed isGap_nil (.inl rfl) isGap_nil (.whole _) .nil
  have hbroken : Broken (other.line [] ':' [])
      (['b', ':'] ++ 'x' :: '\\' :: (LineEnd.returnFeed.text ++ (['\t'] ++ ['#', '2']))) := by
    have hline : other.line [] ':' [] = ['b', ':'] ++ 'x' :: '#' :: ['2'] := by
      simp [Message.line, other]
    rw [hline]
    exact .cut .returnFeed (by decide) (by decide) htab (.whole _)
  have hother := Written.message other .feed isGap_nil (.inr rfl) isGap_nil hbroken hlast
  have hfirst := Written.message first .returnFeed hspace (.inl rfl) hspace (.whole _)
    (.blank .feed isGap_nil hother)
  have hall := Written.comment .feed hspace (.inl rfl) (by decide : '\n' ∉ [' ', '\\']) hfirst
  have htext : Written [first, other, last]
      " # \\\na = 1\r\n\nb:x\\\r\n\t#2\na=3 \n".toList := by
    simpa [Message.line, LineEnd.text, first, other, last] using hall
  exact htext.messages_read_back "a"

end Properties

end TextTemplate
