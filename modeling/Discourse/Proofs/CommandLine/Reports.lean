import Discourse.Proofs.Attribution.Course
import Discourse.Proofs.CommandLine.Files
import Discourse.Proofs.Preparation.Lasting
import Discourse.Proofs.Report.Naming
import Mathlib.Data.List.Pairwise
/-!
# The reports of a run

A run writes up to two files for every document that can be attributed, under a name made from the
document's id.  No document reads what another one writes, so what is left at the end is decided by
the order of the writes alone.  A name that two ids share takes one report away, in every order: the
texts differ, for each begins with its id, and only the last one written is left.  Hence all reports
are there at the end exactly if no two attributed documents share a name (`reports_kept_iff`).  How a
run ends does not show it: the ends of the documents are the same either way.
-/

namespace Discourse

namespace Document

variable {doc d : Document}

/-! ## Ids -/

theorem id_processDiscourse (doc : Document) (lex : Lexicon) :
    (doc.processDiscourse lex).id = doc.id := by
  obtain ⟨sentences, speakers, speakerInfo, speakerPairs, analysed⟩ := doc.processDiscourse_eq lex
  obtain ⟨mentions, maxUtterance, speakersGiven, marked⟩ := doc.markDiscourse_eq
  rw [analysed]
  show doc.markDiscourse.id = doc.id
  rw [marked]

theorem id_laidOut (doc : Document) (settings : PreparationSettings) :
    (doc.laidOut settings).id = doc.id := by
  obtain ⟨related, marked⟩ := doc.reorderMentions.markRelations_eq
  obtain ⟨mentions, paragraphs, cut⟩ :=
    doc.reorderMentions.markRelations.numbered_eq settings.paragraphGap
  rw [laidOut, cut]
  show doc.reorderMentions.markRelations.id = doc.id
  rw [marked]
  rfl

theorem id_analysed (doc : Document) (lex : Lexicon) (settings : PreparationSettings) :
    (doc.analysed lex settings).id = doc.id := by
  have clustered (d : Document) : d.initializeClusters.id = d.id := by rw [initializeClusters_eq]
  exact (clustered _).trans ((id_processDiscourse _ lex).trans (doc.id_laidOut settings))

theorem id_prepare {lex : Lexicon} {settings : PreparationSettings} {raw : RawMentions}
    {counts : PreparationSummary} (ok : doc.prepare lex settings raw = (d, .ok counts)) :
    d.id = doc.id := by
  obtain ⟨given, taken, count, -, taking, rfl⟩ := exists_taken_of_prepare ok
  have placed : ∀ d : Document, d.assignPlaces.id = d.id := by
    intro d
    obtain ⟨mentions, eq⟩ := d.assignPlaces_eq
    rw [eq]
  have gathered : ∀ d : Document, d.gatherGoldClusters.1.id = d.id := by
    intro d
    obtain ⟨goldClusters, eq⟩ := d.gatherGoldClusters_eq
    rw [eq]
  have same : doc.SameButMentions taken := by
    have same := sameButMentions_initializeMentions doc lex settings.twins given
    rw [taking] at same
    exact same
  have initialized : taken.id = doc.id := by
    rw [same.eq]
    rfl
  rw [placed, gathered, id_analysed, initialized]

theorem id_readyForAttribution (doc : Document) : doc.readyForAttribution.id = doc.id := by
  have quoted : ∀ d : Document,
      (if d.quotes.isEmpty then { d with quotes := d.detectQuotes } else d).id = d.id := by
    intro d
    split <;> rfl
  have named : ∀ d : Document,
      (if d.entities.isEmpty then { d with entities := d.entityMentions } else d).id = d.id := by
    intro d
    split <;> rfl
  have indexed : ∀ d : Document, d.indexEntities.id = d.id := fun _ => rfl
  rw [readyForAttribution, indexed, named, quoted]

theorem id_attributeQuotes {S : Type} [QuoteScorer S] {lex : Lexicon}
    {settings : AttributionSettings} {scorer? : Option S} {summary : AttributionSummary}
    (ok : doc.attributeQuotes lex settings scorer? = .ok (d, summary)) : d.id = doc.id := by
  have outcome := afterAttribution_eq_ok_iff.mpr ⟨summary, ok⟩
  obtain ⟨quotes, -, rfl⟩ := map_eq_ok_iff.mp (afterAttribution_eq_ok_iff_passable.mp outcome).2
  exact doc.id_readyForAttribution

end Document

namespace CommandLine

namespace RunSettings

variable {settings : RunSettings} {document : Document × RawMentions}

/-- A document that can be attributed. -/
def Attributes (settings : RunSettings) (document : Document × RawMentions) : Prop :=
  ∃ result, settings.attribute document = .ok result

/-- Where the report of an id lies that has a name with this ending. -/
def reportPath (settings : RunSettings) (id ending : String) : String :=
  joinPath settings.output (reportName id ++ ending)

/-- The files written for a document, in order. -/
def reportFiles (settings : RunSettings) (document : Document × RawMentions) :
    List (String × String) :=
  match settings.attribute document with
  | .error _ => []
  | .ok (doc, summary) =>
    (settings.reportPath doc.id ".json", (doc.report summary).machineText) ::
      if settings.readable then [(settings.reportPath doc.id ".txt", doc.readable)] else []

/-- How the work on a document ends if its files can be written. -/
def endOf (settings : RunSettings) (document : Document × RawMentions) : DocumentEnd :=
  match settings.attribute document with
  | .error .outOfRange | .error .overflow => .broken
  | .error (.fault _) => .failed
  | .ok _ => .finished

theorem id_attribute {doc : Document} {summary : AttributionSummary}
    (ok : settings.attribute document = .ok (doc, summary)) : doc.id = document.1.id := by
  rw [RunSettings.attribute] at ok
  split at ok
  next => cases ok
  next prepared _ preparing =>
    exact (Document.id_attributeQuotes ok).trans (Document.id_prepare preparing)

theorem mem_reportFiles_iff {file : String × String} :
    file ∈ settings.reportFiles document ↔ ∃ doc summary,
      settings.attribute document = .ok (doc, summary) ∧
        (file = (settings.reportPath document.1.id ".json", (doc.report summary).machineText) ∨
          settings.readable = true ∧
            file = (settings.reportPath document.1.id ".txt", doc.readable)) := by
  rw [reportFiles]
  cases attributed : settings.attribute document with
  | error stop => simp
  | ok result =>
    obtain ⟨doc, summary⟩ := result
    dsimp only
    rw [id_attribute attributed]
    cases settings.readable <;> simp [Except.ok.injEq, Prod.ext_iff]

end RunSettings

/-! ## One document -/

section Steps

variable {ε σ α β : Type} {s s' : σ} {a : α}

/-- A step whose result is known is passed. -/
theorem bind_of_eq {first : StateM σ α} (known : first s = (a, s')) (next : α → StateM σ β) :
    (first >>= next) s = next a s' := by
  show StateT.bind first next s = next a s'
  rw [StateT.bind, known]
  rfl

/-- A step that does not fail is passed, with what it results in. -/
theorem run_bind_of_ok {first : ExceptT ε (StateM σ) α} (known : first.run s = (.ok a, s'))
    (next : α → ExceptT ε (StateM σ) β) : (first >>= next).run s = (next a).run s' :=
  bind_of_eq known (ExceptT.bindCont next)

theorem run_lift_of_eq {first : StateM σ α} (known : first s = (a, s')) :
    (liftM first : ExceptT ε (StateM σ) α).run s = (.ok a, s') := by
  show StateT.map Except.ok first s = (.ok a, s')
  rw [StateT.map, known]
  rfl

end Steps

theorem FileTree.write_disk_of_eq {tree next : FileTree} {path text : String}
    (written : tree.write? path text = some next) :
    FileTree.disk.write path text tree = (true, next) := by
  show FileTree.attempt (fun tree => tree.write? path text) tree = (true, next)
  rw [FileTree.attempt, written]

/-- The work on a document writes its files, one after the other. -/
theorem attributeDocument_eq {settings : RunSettings} {document : Document × RawMentions}
    {tree next : FileTree} (written : tree.writeAll? (settings.reportFiles document) = some next) :
    attributeDocument FileTree.disk settings document tree = (settings.endOf document, next) := by
  rw [RunSettings.reportFiles] at written
  rw [attributeDocument, RunSettings.endOf]
  cases attributed : settings.attribute document with
  | error stop =>
    rw [attributed] at written
    obtain rfl : tree = next := Option.some.inj written
    cases stop <;> rfl
  | ok result =>
    obtain ⟨doc, summary⟩ := result
    rw [attributed] at written
    dsimp only at written ⊢
    rw [FileTree.writeAll?, List.foldlM_cons] at written
    obtain ⟨mid, json, rest⟩ := Option.bind_eq_some_iff.mp written
    have both : writeReports FileTree.disk settings doc summary tree = (true, next) := by
      rw [writeReports]
      refine (bind_of_eq (FileTree.write_disk_of_eq json) _).trans ?_
      cases readable : settings.readable with
      | false =>
        rw [readable] at rest
        obtain rfl : mid = next := Option.some.inj rest
        rfl
      | true =>
        rw [readable, if_pos rfl, List.foldlM_cons] at rest
        obtain ⟨final, text, done⟩ := Option.bind_eq_some_iff.mp rest
        obtain rfl : final = next := Option.some.inj done
        exact FileTree.write_disk_of_eq text
    exact bind_of_eq both _

/-! ## All documents -/

/-- The documents are worked on one after the other, and none changes how another one ends. -/
theorem mapM_attributeDocument_eq {settings : RunSettings}
    {documents : List (Document × RawMentions)} {tree final : FileTree}
    (written : tree.writeAll? (documents.flatMap settings.reportFiles) = some final) :
    documents.mapM (attributeDocument FileTree.disk settings) tree =
      (documents.map settings.endOf, final) := by
  induction documents generalizing tree with
  | nil =>
    obtain rfl : tree = final := Option.some.inj written
    rfl
  | cons document rest ih =>
    rw [List.flatMap_cons, FileTree.writeAll?_append] at written
    obtain ⟨next, first, others⟩ := Option.bind_eq_some_iff.mp written
    rw [List.mapM_cons, bind_of_eq (attributeDocument_eq first), bind_of_eq (ih others)]
    rfl

/-- What a run has read when it begins to work on documents, with the files at that point; none if
it ends before. -/
def reached? (command : AttributeCommand) (start : FileTree) :
    Option (RunSettings × List (Document × RawMentions) × FileTree) :=
  match (settingsOf FileTree.disk command).run start with
  | (.error _, _) => none
  | (.ok settings, asked) =>
    match FileTree.disk.makeDirectory command.output asked with
    | (false, _) => none
    | (true, made) =>
      match (loadAll FileTree.disk command.columns command.inputs).run made with
      | (.error _, _) => none
      | (.ok documents, tree) => some (settings, documents, tree)

/-- From there on a run writes the files of its documents in order. -/
theorem run_eq_of_reached {command : AttributeCommand} {start tree final : FileTree}
    {settings : RunSettings} {documents : List (Document × RawMentions)}
    (reached : reached? command start = some (settings, documents, tree))
    (written : tree.writeAll? (documents.flatMap settings.reportFiles) = some final) :
    (runAttribute FileTree.disk command).run start =
      (outcomeOf (documents.map settings.endOf), final) := by
  rw [reached?] at reached
  split at reached
  next => cases reached
  next read =>
    split at reached
    next => cases reached
    next directory =>
      split at reached
      next => cases reached
      next loaded =>
        cases reached
        rw [runAttribute, run_bind_of_ok read, run_bind_of_ok (run_lift_of_eq directory), if_pos rfl,
          run_bind_of_ok loaded, run_bind_of_ok (run_lift_of_eq (mapM_attributeDocument_eq written))]
        rfl

/-! ## Names that clash -/

/-- The endings of the names of reports. -/
def reportEndings : List String := [".json", ".txt"]

theorem isFileName_report {ending : String} (mem : ending ∈ reportEndings) (id : String) :
    IsFileName (reportName id ++ ending) := by
  have plain : '/' ∉ ending.toList := by
    revert ending
    decide
  have long : 2 < ending.length := by
    revert ending
    decide
  have longer : 2 < (reportName id ++ ending).length := by
    rw [String.length_append]
    omega
  have ne : ∀ short : String, short.length ≤ 2 → reportName id ++ ending ≠ short := by
    rintro short le rfl
    omega
  refine ⟨?_, ne "" (by decide), ne "." (by decide), ne ".." (by decide)⟩
  rw [String.toList_append, List.mem_append]
  exact not_or.mpr ⟨slash_not_mem_reportName id, plain⟩

/-- The names of two reports are equal only if they are of one kind and the ids share a name. -/
theorem reportFile_eq_iff {ending ending' : String} (mem : ending ∈ reportEndings)
    (mem' : ending' ∈ reportEndings) (a b : String) :
    reportName a ++ ending = reportName b ++ ending' ↔ ending = ending' ∧ SameName a b := by
  constructor
  · intro same
    have lasts : ending.toList.getLast? = ending'.toList.getLast? := by
      have some : ∀ e ∈ reportEndings, e.toList ≠ [] := by decide
      have both := congrArg (fun s : String => s.toList.getLast?) same
      simp only [String.toList_append] at both
      rwa [List.getLast?_append_of_ne_nil _ (some ending mem),
        List.getLast?_append_of_ne_nil _ (some ending' mem')] at both
    have kinds : ∀ e ∈ reportEndings, ∀ e' ∈ reportEndings,
        e.toList.getLast? = e'.toList.getLast? → e = e' := by decide
    obtain rfl := kinds ending mem ending' mem' lasts
    exact ⟨rfl, (reportName_eq_iff a b).mp (String.append_left_inj _ |>.mp same)⟩
  · rintro ⟨rfl, same⟩
    rw [(reportName_eq_iff a b).mpr same]

namespace RunSettings

variable {settings : RunSettings} {ending ending' : String}

/-- Two reports of one kind have one path exactly if the ids share a name. -/
theorem reportPath_eq_iff (mem : ending ∈ reportEndings) (a b : String) :
    settings.reportPath a ending = settings.reportPath b ending ↔ SameName a b := by
  constructor
  · intro same
    obtain ⟨front, split_eq⟩ := exists_splitOn_joinPath settings.output
    have names : front ++ [reportName a ++ ending] = front ++ [reportName b ++ ending] := by
      rw [← split_eq _ (isFileName_report mem a).plain, ← split_eq _ (isFileName_report mem b).plain]
      exact congrArg _ same
    have name := List.singleton_inj.mp (List.append_cancel_left names)
    exact ((reportFile_eq_iff mem mem a b).mp name).2
  · intro same
    rw [reportPath, reportPath, (reportName_eq_iff a b).mpr same]

/-- So is it with the places the paths lead to. -/
theorem sameName_of_route?_eq {tree : FileTree} {a b : String} (mem : ending ∈ reportEndings)
    (mem' : ending' ∈ reportEndings) (can : tree.CanWrite (settings.reportPath a ending))
    (same : tree.route? (settings.reportPath a ending) =
      tree.route? (settings.reportPath b ending')) : ending = ending' ∧ SameName a b := by
  obtain ⟨route, leads, -⟩ := can
  have found : (tree.route? (settings.reportPath a ending)).isSome = true := by
    rw [leads]
    rfl
  exact (reportFile_eq_iff mem mem' a b).mp <| FileTree.name_eq_of_route?_eq
    (isFileName_report mem a) (isFileName_report mem' b) same found

/-- Reports that lie at one place and have one text: that is so for all of them exactly if no two
documents share a name. -/
theorem reports_agree_iff {documents : List (Document × RawMentions)}
    (distinct : (documents.map fun document => document.1.id).Nodup) {tree : FileTree}
    (writable : ∀ file ∈ documents.flatMap settings.reportFiles, tree.CanWrite file.1) :
    (∀ file ∈ documents.flatMap settings.reportFiles,
        ∀ other ∈ documents.flatMap settings.reportFiles,
          tree.route? file.1 = tree.route? other.1 → file.2 = other.2) ↔
      documents.Pairwise fun d e =>
        settings.Attributes d → settings.Attributes e → ¬ SameName d.1.id e.1.id := by
  constructor
  · intro agree
    have apart : documents.Pairwise fun d e => d.1.id ≠ e.1.id := List.pairwise_map.mp distinct
    refine apart.imp_of_mem fun {d e} mem mem' ne attributed attributed' same => ne ?_
    obtain ⟨⟨doc, summary⟩, ok⟩ := attributed
    obtain ⟨⟨doc', summary'⟩, ok'⟩ := attributed'
    have path : settings.reportPath d.1.id ".json" = settings.reportPath e.1.id ".json" :=
      (reportPath_eq_iff (by decide) d.1.id e.1.id).mpr same
    have texts : (doc.report summary).machineText = (doc'.report summary').machineText :=
      agree (_, _) (List.mem_flatMap.mpr ⟨d, mem, mem_reportFiles_iff.mpr ⟨_, _, ok, .inl rfl⟩⟩)
        (_, _) (List.mem_flatMap.mpr ⟨e, mem', mem_reportFiles_iff.mpr ⟨_, _, ok', .inl rfl⟩⟩)
        (congrArg tree.route? path)
    calc d.1.id = doc.id := (id_attribute ok).symm
      _ = doc'.id := id_eq_of_machineText_eq texts
      _ = e.1.id := id_attribute ok'
  · intro apart file mem other mem' same
    have can := writable file mem
    obtain ⟨d, memd, filed⟩ := List.mem_flatMap.mp mem
    obtain ⟨e, meme, filed'⟩ := List.mem_flatMap.mp mem'
    obtain ⟨doc, summary, ok, kind⟩ := mem_reportFiles_iff.mp filed
    obtain ⟨doc', summary', ok', kind'⟩ := mem_reportFiles_iff.mp filed'
    have : Std.Symm fun d e : Document × RawMentions =>
        settings.Attributes d → settings.Attributes e → ¬ SameName d.1.id e.1.id := by
      refine ⟨fun d e apart attributed attributed' same => ?_⟩
      exact apart attributed' attributed (sameName_comm.mp same)
    have one : SameName d.1.id e.1.id → d = e := by
      intro name
      by_contra ne
      exact apart.forall memd meme ne ⟨_, ok⟩ ⟨_, ok'⟩ name
    -- Two kinds of reports never meet, and one kind meets only within one document.
    rcases kind with rfl | ⟨-, rfl⟩ <;> rcases kind' with rfl | ⟨-, rfl⟩ <;>
      obtain ⟨kinds, name⟩ := sameName_of_route?_eq (by decide) (by decide) can same
    · obtain rfl := one name
      obtain ⟨rfl, rfl⟩ := Prod.mk.inj (Except.ok.inj (ok.symm.trans ok'))
      rfl
    · exact absurd kinds (by decide)
    · exact absurd kinds (by decide)
    · obtain rfl := one name
      obtain ⟨rfl, -⟩ := Prod.mk.inj (Except.ok.inj (ok.symm.trans ok'))
      rfl

end RunSettings

/-! ## The reports at the end -/

/-- The paths of two reports of one kind are equal exactly if the ids share a name.  A run over
documents with different ids writes all reports; whatever order they are written in, all are there
at the end exactly if no two of the documents that can be attributed share a name. -/
theorem reports_kept_iff {command : AttributeCommand} {start tree : FileTree}
    {settings : RunSettings} {documents : List (Document × RawMentions)}
    (reached : reached? command start = some (settings, documents, tree))
    (distinct : (documents.map fun document => document.1.id).Nodup)
    (writable : ∀ file ∈ documents.flatMap settings.reportFiles, tree.CanWrite file.1) :
    (∀ ending ∈ reportEndings, ∀ a b,
      settings.reportPath a ending = settings.reportPath b ending ↔ SameName a b) ∧
    (∃ final, tree.writeAll? (documents.flatMap settings.reportFiles) = some final ∧
      (runAttribute FileTree.disk command).run start =
        (outcomeOf (documents.map settings.endOf), final)) ∧
    ∀ order, order.Perm (documents.flatMap settings.reportFiles) →
      ∃ final, tree.writeAll? order = some final ∧
        ((∀ file ∈ order, final.read? file.1 = some file.2) ↔
          documents.Pairwise fun d e =>
            settings.Attributes d → settings.Attributes e → ¬ SameName d.1.id e.1.id) := by
  refine ⟨fun ending mem => RunSettings.reportPath_eq_iff mem, ?_, fun order perm => ?_⟩
  · obtain ⟨final, written, -⟩ := FileTree.exists_writeAll? writable
    exact ⟨final, written, run_eq_of_reached reached written⟩
  · have can : ∀ file ∈ order, tree.CanWrite file.1 :=
      fun file mem => writable file (perm.mem_iff.mp mem)
    obtain ⟨final, written, kept⟩ := FileTree.read?_writeAll_iff can
    refine ⟨final, written, kept.trans ?_⟩
    rw [← RunSettings.reports_agree_iff distinct writable]
    simp only [perm.mem_iff]

/-- A document without sentences, as its file has it. -/
def emptyText (id : String) : String :=
  "\x7b\"doc_id\": " ++ Json.quoteText id ++ ", \"sentences\": []\x7d"

/-- Two files with one document each. -/
def twoFiles (id id' : String) : FileTree where
  files := Table.ofList [(["a.json"], emptyText id), (["b.json"], emptyText id')]

/-- The command to attribute the documents of files, with readable reports. -/
def attributing (inputs : List String) : AttributeCommand where
  inputs
  output := "out"
  readable := true
  columns := false
  quoteSieves := AttributionSettings.defaultQuoteKeys
  speakerSieves := AttributionSettings.defaultSpeakerKeys
  model? := none
  relaxedTwins := false

/-- The reports of two documents with different names are kept, in whatever order they are
written. -/
theorem reports_kept_iff_two : ∃ settings documents tree,
    reached? (attributing ["a.json", "b.json"]) (twoFiles "a" "b") =
      some (settings, documents, tree) ∧
    (documents.map fun document => document.1.id) = ["a", "b"] ∧
    ∀ order, order.Perm (documents.flatMap settings.reportFiles) →
      ∃ final, tree.writeAll? order = some final ∧
        ∀ file ∈ order, final.read? file.1 = some file.2 := by
  have seen : (reached? (attributing ["a.json", "b.json"]) (twoFiles "a" "b")).map (fun r =>
      (r.2.1.map fun document => document.1.id,
        (r.2.1.flatMap r.1.reportFiles).all fun file => (r.2.2.write? file.1 file.2).isSome)) =
      some (["a", "b"], true) := by
    decide +kernel
  obtain ⟨⟨settings, documents, tree⟩, reached, seen⟩ := Option.map_eq_some_iff.mp seen
  obtain ⟨ids, writes⟩ := Prod.mk.inj seen
  have writable : ∀ file ∈ documents.flatMap settings.reportFiles, tree.CanWrite file.1 :=
    fun file mem => FileTree.canWrite_of_isSome_write? (List.all_eq_true.mp writes file mem)
  have kept := (reports_kept_iff reached (by rw [ids]; decide) writable).2.2
  refine ⟨settings, documents, tree, reached, ids, fun order perm => ?_⟩
  obtain ⟨final, written, all⟩ := kept order perm
  refine ⟨final, written, all.mpr ?_⟩
  have apart : documents.Pairwise fun d e => ¬ SameName d.1.id e.1.id := by
    rw [← List.pairwise_map (f := fun d : Document × RawMentions => d.1.id)
      (R := fun a b => ¬ SameName a b), ids]
    decide
  exact apart.imp fun different _ _ => different

/-- A run over two documents whose different ids have one name. -/
def clashingRun (inputs : List String) : Except ReadError Unit × FileTree :=
  (runAttribute FileTree.disk (attributing inputs)).run (twoFiles "a/b" "a_b")

/-- The reports of one document are lost, in either order, and the run succeeds. -/
theorem reports_lost_of_slash :
    (reached? (attributing ["a.json", "b.json"]) (twoFiles "a/b" "a_b")).map
      (fun r => r.2.1.map fun document => document.1.id) = some ["a/b", "a_b"] ∧
    reportName "a/b" = reportName "a_b" ∧
    ∀ inputs ∈ [["a.json", "b.json"], ["b.json", "a.json"]],
      (clashingRun inputs).1.isOk = true ∧
        ((clashingRun inputs).2.filesIn ["out"]).map Prod.fst = ["a_b.json", "a_b.txt"] := by
  decide +kernel

end CommandLine

end Discourse
