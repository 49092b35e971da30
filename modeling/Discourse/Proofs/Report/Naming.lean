import Discourse.CommandLine.Run
import Mathlib.Data.List.Forall2
import Mathlib.Data.String.Basic
/-!
# The names of reports

The name of a report keeps letters, digits, hyphens and underscores of the document's id and shows
every other character as an underscore.  So two ids have one name exactly if they are equally long
and differ only where both have an underscore or a character that is shown as one
(`reportName_eq_iff`).  The text of a report, on the other hand, tells the id: it begins with the
id as a text in quotes, and the end of such a text cannot be mistaken (`id_eq_of_machineText_eq`).
-/

namespace Discourse

open CommandLine

/-! ## Names -/

/-- A character that a name shows as an underscore. -/
def isHidden (c : Char) : Bool := !isNameChar c || c == '_'

/-- Two ids that differ only in characters shown as underscores. -/
def SameName (a b : String) : Prop :=
  List.Forall₂ (fun c d => c = d ∨ isHidden c = true ∧ isHidden d = true) a.toList b.toList

instance (a b : String) : Decidable (SameName a b) :=
  inferInstanceAs (Decidable (List.Forall₂ _ a.toList b.toList))

/-- A character as a name shows it. -/
def nameChar (c : Char) : Char := if isNameChar c then c else '_'

theorem nameChar_eq_underscore_iff (c : Char) : nameChar c = '_' ↔ isHidden c = true := by
  cases kept : isNameChar c <;> simp [nameChar, isHidden, kept]

theorem nameChar_eq_iff (c d : Char) :
    nameChar c = nameChar d ↔ c = d ∨ isHidden c = true ∧ isHidden d = true := by
  constructor
  · intro same
    by_cases hidden : isHidden c = true
    · have shown : nameChar d = '_' := same ▸ (nameChar_eq_underscore_iff c).mpr hidden
      exact .inr ⟨hidden, (nameChar_eq_underscore_iff d).mp shown⟩
    · have bare : ¬ isHidden d = true := by
        intro hidden'
        have shown := (nameChar_eq_underscore_iff d).mpr hidden'
        exact hidden ((nameChar_eq_underscore_iff c).mp (same.trans shown))
      have keeps : ∀ e : Char, ¬ isHidden e = true → nameChar e = e := by
        intro e bare
        refine if_pos ?_
        simp only [isHidden, Bool.or_eq_true, not_or, Bool.not_eq_true', Bool.not_eq_false] at bare
        exact bare.1
      exact .inl ((keeps c hidden).symm.trans (same.trans (keeps d bare)))
  · rintro (rfl | ⟨first, second⟩)
    · rfl
    · exact ((nameChar_eq_underscore_iff c).mpr first).trans
        ((nameChar_eq_underscore_iff d).mpr second).symm

/-- A name does not tell ids apart that differ only in characters it shows as underscores. -/
theorem reportName_eq_iff (a b : String) : reportName a = reportName b ↔ SameName a b := by
  have names : reportName a = reportName b ↔
      a.toList.map nameChar = b.toList.map nameChar := String.ofList_inj
  rw [names, ← List.forall₂_eq_eq_eq, List.forall₂_map_left_iff, List.forall₂_map_right_iff]
  simp only [nameChar_eq_iff]
  exact Iff.rfl

theorem sameName_comm {a b : String} : SameName a b ↔ SameName b a := by
  rw [← reportName_eq_iff, ← reportName_eq_iff, eq_comm]

/-- A report name has no slash. -/
theorem slash_not_mem_reportName (id : String) : '/' ∉ (reportName id).toList := by
  intro mem
  rw [reportName, String.toList_ofList] at mem
  obtain ⟨c, -, shown⟩ := List.mem_map.mp mem
  split at shown
  next kept =>
    rw [shown] at kept
    exact absurd kept (by decide)
  next => exact absurd shown (by decide)

/-! ## Texts in quotes -/

namespace Json

/-- The characters that are escaped inside a text. -/
def escapedChars : List Char := '"' :: '\\' :: (List.range 32).map Char.ofNat

theorem escapeChar_of_not_mem {c : Char} (plain : c ∉ escapedChars) : escapeChar c = [c] := by
  have apart : ∀ d ∈ escapedChars, c ≠ d := by
    rintro d mem rfl
    exact plain mem
  have printable : ¬ c.toNat < 0x20 := by
    intro lt
    have mem : Char.ofNat c.toNat ∈ (List.range 32).map Char.ofNat :=
      List.mem_map_of_mem (List.mem_range.mpr lt)
    rw [Char.ofNat_toNat] at mem
    exact plain (List.mem_cons_of_mem _ (List.mem_cons_of_mem _ mem))
  rw [escapeChar, if_neg (apart '"' (by decide)), if_neg (apart '\\' (by decide)),
    if_neg (apart '\n' (by decide)), if_neg (apart '\r' (by decide)),
    if_neg (apart '\t' (by decide)), if_neg (by omega), if_neg (by omega), if_neg printable]

theorem head?_escapeChar_of_mem {c : Char} (mem : c ∈ escapedChars) :
    (escapeChar c).head? = some '\\' := by
  have all : (escapedChars.all fun c => (escapeChar c).head? == some '\\') = true := by
    decide +kernel
  exact beq_iff_eq.mp (List.all_eq_true.mp all c mem)

theorem eq_of_isPrefix_escapeChar {c d : Char} (mem : c ∈ escapedChars) (mem' : d ∈ escapedChars)
    (before : escapeChar c <+: escapeChar d) : c = d := by
  have all : (escapedChars.all fun c => escapedChars.all fun d =>
      !(escapeChar c).isPrefixOf (escapeChar d) || c == d) = true := by
    decide +kernel
  have pair := List.all_eq_true.mp (List.all_eq_true.mp all c mem) d mem'
  rw [List.isPrefixOf_iff_prefix.mpr before, Bool.not_true, Bool.false_or] at pair
  exact beq_iff_eq.mp pair

/-- No character is written as a quote. -/
theorem head?_escapeChar_ne_quote (c : Char) : (escapeChar c).head? ≠ some '"' := by
  by_cases escaped : c ∈ escapedChars
  · rw [head?_escapeChar_of_mem escaped]
    decide
  · rw [escapeChar_of_not_mem escaped]
    intro quote
    exact escaped (Option.some.inj quote ▸ List.mem_cons_self)

theorem escapeChar_ne_nil (c : Char) : escapeChar c ≠ [] := by
  by_cases escaped : c ∈ escapedChars
  · intro empty
    have head := head?_escapeChar_of_mem escaped
    rw [empty] at head
    cases head
  · rw [escapeChar_of_not_mem escaped]
    exact List.cons_ne_nil c []

/-- What is written for a character cannot be taken for another one. -/
theorem escapeChar_append_inj {c d : Char} {x y : List Char}
    (same : escapeChar c ++ x = escapeChar d ++ y) : c = d ∧ x = y := by
  have eq : c = d := by
    have heads : (escapeChar c).head? = (escapeChar d).head? := by
      have both := congrArg List.head? same
      rwa [List.head?_append_of_ne_nil _ (escapeChar_ne_nil c),
        List.head?_append_of_ne_nil _ (escapeChar_ne_nil d)] at both
    by_cases first : c ∈ escapedChars <;> by_cases second : d ∈ escapedChars
    · rcases List.prefix_or_prefix_of_prefix (List.prefix_append (escapeChar c) x)
        (same ▸ List.prefix_append (escapeChar d) y) with before | before
      · exact eq_of_isPrefix_escapeChar first second before
      · exact (eq_of_isPrefix_escapeChar second first before).symm
    · rw [head?_escapeChar_of_mem first, escapeChar_of_not_mem second] at heads
      exact absurd (Option.some.inj heads ▸ by decide) second
    · rw [head?_escapeChar_of_mem second, escapeChar_of_not_mem first] at heads
      exact absurd (Option.some.inj heads.symm ▸ by decide) first
    · rw [escapeChar_of_not_mem first, escapeChar_of_not_mem second] at heads
      exact Option.some.inj heads
  subst eq
  exact ⟨rfl, List.append_cancel_left same⟩

/-- The quote behind a text ends it. -/
theorem escaped_append_inj {s t x y : List Char}
    (same : s.flatMap escapeChar ++ '"' :: x = t.flatMap escapeChar ++ '"' :: y) : s = t := by
  induction s generalizing t with
  | nil =>
    cases t with
    | nil => rfl
    | cons d rest =>
      have head := congrArg List.head? same
      rw [List.flatMap_cons, List.append_assoc,
        List.head?_append_of_ne_nil _ (escapeChar_ne_nil d)] at head
      exact absurd head.symm (head?_escapeChar_ne_quote d)
  | cons c s ih =>
    cases t with
    | nil =>
      have head := congrArg List.head? same
      rw [List.flatMap_cons, List.append_assoc,
        List.head?_append_of_ne_nil _ (escapeChar_ne_nil c)] at head
      exact absurd head (head?_escapeChar_ne_quote c)
    | cons d t =>
      rw [List.flatMap_cons, List.flatMap_cons, List.append_assoc, List.append_assoc] at same
      obtain ⟨rfl, rest⟩ := escapeChar_append_inj same
      rw [ih rest]

theorem quoteText_append_inj {s t x y : String} (same : quoteText s ++ x = quoteText t ++ y) :
    s = t := by
  have chars := congrArg String.toList same
  simp only [quoteText, String.toList_append, String.toList_ofList, List.cons_append,
    List.append_assoc, List.cons.injEq, true_and, List.nil_append] at chars
  exact String.toList_inj.mp (escaped_append_inj chars)

/-! ## Written values -/

mutual

/-- A value is written behind what is written already. -/
theorem exists_prettyOnto (out : String) (level : Nat) :
    ∀ v : Json, ∃ tail, prettyOnto out level v = out ++ tail
  | .null => ⟨_, rfl⟩
  | .bool _ => ⟨_, rfl⟩
  | .num _ => ⟨_, rfl⟩
  | .str _ => ⟨_, rfl⟩
  | .arr [] => ⟨_, rfl⟩
  | .obj [] => ⟨_, rfl⟩
  | .arr (item :: rest) => by
    obtain ⟨tail, first⟩ :=
      exists_prettyOnto (out ++ "[" ++ newLine (level + 1)) (level + 1) item
    obtain ⟨tail', others⟩ :=
      exists_prettyItems (out ++ "[" ++ newLine (level + 1) ++ tail) (level + 1) rest
    rw [prettyOnto, first, others]
    simp only [String.append_assoc]
    exact ⟨_, rfl⟩
  | .obj ((name?, value) :: rest) => by
    obtain ⟨tail, first⟩ := exists_prettyOnto
      (out ++ "\x7b" ++ newLine (level + 1) ++ quoteText? name? ++ ": ") (level + 1) value
    obtain ⟨tail', others⟩ := exists_prettyFields
      (out ++ "\x7b" ++ newLine (level + 1) ++ quoteText? name? ++ ": " ++ tail) (level + 1) rest
    rw [prettyOnto, first, others]
    simp only [String.append_assoc]
    exact ⟨_, rfl⟩

theorem exists_prettyItems (out : String) (level : Nat) :
    ∀ items : List Json, ∃ tail, prettyItems out level items = out ++ tail
  | [] => ⟨"", by rw [prettyItems, String.append_empty]⟩
  | item :: rest => by
    obtain ⟨tail, first⟩ := exists_prettyOnto (out ++ "," ++ newLine level) level item
    obtain ⟨tail', others⟩ :=
      exists_prettyItems (out ++ "," ++ newLine level ++ tail) level rest
    rw [prettyItems, first, others]
    simp only [String.append_assoc]
    exact ⟨_, rfl⟩

theorem exists_prettyFields (out : String) (level : Nat) :
    ∀ fields : List (Option String × Json), ∃ tail, prettyFields out level fields = out ++ tail
  | [] => ⟨"", by rw [prettyFields, String.append_empty]⟩
  | (name?, value) :: rest => by
    obtain ⟨tail, first⟩ :=
      exists_prettyOnto (out ++ "," ++ newLine level ++ quoteText? name? ++ ": ") level value
    obtain ⟨tail', others⟩ := exists_prettyFields
      (out ++ "," ++ newLine level ++ quoteText? name? ++ ": " ++ tail) level rest
    rw [prettyFields, first, others]
    simp only [String.append_assoc]
    exact ⟨_, rfl⟩

end

end Json

/-- Behind a fixed beginning a report has the id of its document. -/
theorem Report.exists_machineText (r : Report) : ∃ tail, r.machineText =
    "\x7b" ++ Json.newLine 1 ++ Json.quoteText "doc_id" ++ ": " ++ (Json.quoteText r.id ++ tail) := by
  have fields : ∃ others, r.toJson = .obj ((some "doc_id", .str (some r.id)) :: others) := ⟨_, rfl⟩
  obtain ⟨others, fields⟩ := fields
  obtain ⟨tail, rest⟩ := Json.exists_prettyFields ("" ++ "\x7b" ++ Json.newLine 1 ++
    Json.quoteText? (some "doc_id") ++ ": " ++ Json.quoteText r.id) 1 others
  refine ⟨tail ++ (Json.newLine 0 ++ "\x7d"), ?_⟩
  rw [machineText, Json.pretty, fields, Json.prettyOnto, Json.prettyOnto]
  show Json.prettyFields ("" ++ "\x7b" ++ Json.newLine 1 ++
    Json.quoteText? (some "doc_id") ++ ": " ++ Json.quoteText r.id) 1 others ++
      Json.newLine 0 ++ "\x7d" = _
  rw [rest, String.empty_append]
  simp only [String.append_assoc]
  rfl

/-- The text of a report tells the id of its document. -/
theorem id_eq_of_machineText_eq {r r' : Report} (same : r.machineText = r'.machineText) :
    r.id = r'.id := by
  obtain ⟨tail, text⟩ := r.exists_machineText
  obtain ⟨tail', text'⟩ := r'.exists_machineText
  rw [text, text'] at same
  exact Json.quoteText_append_inj (String.append_right_inj _ |>.mp same)

end Discourse
