import Mathlib.Data.List.Nodup
import RelationalAvro.Config.Draft
import RelationalAvro.Proofs.Conversion.FaultOrder
import RelationalAvro.Proofs.Export.Loading
import RelationalAvro.Proofs.Files.Joining
import RelationalAvro.Proofs.Files.Making

/-!
# The effect of an export

What an export is going to write is settled before it touches anything (`planned`). Then it makes
the directory and writes the files, each of which is the directory's own, since a document that
comes of a conversion has a name without slashes or dots. `Exports` says how this ends where nothing
but files and directories can be in the way: `exportModel_exports`. In particular a run that fails
before the first file is written leaves the tree as it was.
-/

namespace RelationalAvro

open Files (IsFileName IsOrdinary Location Tree World maxNameBytes maxPathBytes stepsFrom)
open Model (Database)

/-! ## Documents and their files -/

namespace Converter

variable {converter : Converter} {database : Database} {documents : List Document}

/-- The documents of a conversion have the names of the tables and enums. -/
theorem map_name_of_convert (h : converter.convert database = .ok documents) :
    documents.map Document.name =
      database.tables.map Model.Table.name ++ database.enums.map Model.Enum.name := by
  rw [convert_eq, firstFaultOr_eq_ok_iff] at h
  rw [← h.2, List.map_map, ← map_fst_described converter]
  rfl

/-- The names of documents are names. -/
theorem isName_of_convert (h : converter.convert database = .ok documents) :
    ∀ document ∈ documents, isName document.name = true := by
  intro document hdocument
  have hname : document.name ∈ documents.map Document.name := List.mem_map_of_mem hdocument
  rw [map_name_of_convert h, List.mem_append, List.mem_map, List.mem_map] at hname
  rw [convert_eq, firstFaultOr_eq_ok_iff, faults_eq_nil_iff] at h
  obtain ⟨table, htable, hname⟩ | ⟨e, he, hname⟩ := hname
  · exact hname ▸ (h.1.table_names table htable).1
  · exact hname ▸ (h.1.enum_names e he).1

end Converter

namespace Document

variable {document : Document}

/-- Documents of different names have different files. -/
theorem fileName_inj {first second : Document} :
    first.fileName = second.fileName ↔ first.name = second.name :=
  String.append_left_inj ".avsc"

/-- The file of a named document has a name without slashes. -/
theorem isFileName_fileName (h : isName document.name = true) : IsFileName document.fileName := by
  have hchars : ∀ c, isNameChar c = false → c ∉ document.name.toList := fun c hc hmem => by
    simp [isNameChar_of_mem h hmem] at hc
  unfold fileName
  constructor
  · simp
  · simpa using hchars '/' (by decide)
  · simpa using hchars '\x00' (by decide)

/-- No document's file is called like a directory's own or its parent's. -/
theorem fileName_ne_dots (document : Document) :
    document.fileName ≠ "." ∧ document.fileName ≠ ".." := by
  have hletter : 'c' ∈ document.fileName.toList := by simp [fileName]
  exact ⟨fun heq => by simp [heq] at hletter, fun heq => by simp [heq] at hletter⟩

/-- The name of a document's file is an ordinary step, if it is not too long. -/
theorem isOrdinary_fileName (h : document.fileName.utf8ByteSize ≤ maxNameBytes) :
    IsOrdinary document.fileName :=
  ⟨document.fileName_ne_dots.1, document.fileName_ne_dots.2, h⟩

/-- The file of the document in the directory has a name and a path that are not too long. -/
structure Fits (document : Document) (directory : String) : Prop where
  name : document.fileName.utf8ByteSize ≤ maxNameBytes
  path : (document.pathIn directory).utf8ByteSize ≤ maxPathBytes

end Document

/-- The place that the path leads to if there are only directories on the way. -/
abbrev Files.World.place (world : World) (path : String) : Location :=
  stepsFrom world.working path

/-- A directory tree with the working directory in it, and a path of ordinary steps. So nothing but
a file can be in the way of a directory there. -/
structure Files.World.Admits (world : World) (directory : String) : Prop where
  closed : world.tree.IsClosed
  working : world.tree.at? world.working = some .directory
  ordinary : ∀ step ∈ world.place directory, IsOrdinary step
  possible : directory = "" ∨ Files.isImpossible directory = false

/-! ## What is planned -/

/-- The documents that an export is to write, unless loading, the conversion or a repeated name ends
it before. -/
def planned (config : Config) (model : String) (world : World) : Except Fault (List Document) := do
  let database ← world.model model
  let documents ← Converter.convert { config } database
  match firstRepeated? (documents.map Document.name) with
  | some name => .error (.duplicateOutput name)
  | none => .ok documents

variable {config : Config} {model directory : String} {world : World} {documents : List Document}

/-- What is planned is what a conversion gives, if no two documents have the same name. -/
theorem planned_eq_ok_iff :
    planned config model world = .ok documents ↔
      (∃ database, world.model model = .ok database ∧
        Converter.convert { config } database = .ok documents) ∧
        (documents.map Document.name).Nodup := by
  constructor
  · intro h
    obtain ⟨database, hmodel, h⟩ := bind_eq_ok_iff.1 h
    obtain ⟨converted, hconvert, h⟩ := bind_eq_ok_iff.1 h
    cases hrepeated : firstRepeated? (converted.map Document.name) with
    | some name => simp [hrepeated] at h
    | none =>
      obtain rfl : converted = documents := by simpa [hrepeated] using h
      exact ⟨⟨database, hmodel, hconvert⟩, firstRepeated?_eq_none_iff.1 hrepeated⟩
  · rintro ⟨⟨database, hmodel, hconvert⟩, hnames⟩
    have hrepeated := firstRepeated?_eq_none_iff.2 hnames
    simp only [planned, hmodel, Bind.bind, Except.bind, hconvert, hrepeated]

/-- An export ends with the fault in its plan, or makes the directory and writes what is planned. -/
theorem simulate_exportModel (config : Config) (model directory : String) (world : World) :
    simulate (exportModel config model directory) world =
      match planned config model world, world.tree.makeDirectories world.working directory with
      | .error fault, _ => (.error fault, world)
      | .ok _, (false, tree) => (.error .inaccessible, { world with tree })
      | .ok documents, (true, tree) =>
        simulate (documents.mapM (writeDocument directory)) { world with tree } := by
  have hplanned : planned config model world =
      (world.model model >>= Converter.convert { config }) >>= fun documents =>
        match firstRepeated? (documents.map Document.name) with
        | some name => .error (.duplicateOutput name)
        | none => .ok documents := (bind_assoc ..).symm
  rw [exportModel, simulate_loadModel_convert, hplanned]
  cases world.model model >>= Converter.convert { config } with
  | error fault => rfl
  | ok converted =>
    dsimp only
    rw [simulate_writeDocuments]
    cases hrepeated : firstRepeated? (converted.map Document.name) with
    | some name => simp [Bind.bind, Except.bind, hrepeated]
    | none =>
      rcases world.tree.makeDirectories world.working directory with ⟨_ | _, tree⟩ <;>
        simp [Bind.bind, Except.bind, hrepeated]

/-! ## What is written -/

/-- In the tree, the path of the document leads into the directory, to the name of its file. -/
def LeadsInto (tree : Tree) (world : World) (directory : String) (document : Document) : Prop :=
  tree.locate (stepsFrom world.working (document.pathIn directory)) =
    some (world.place directory ++ [document.fileName])

/-- The directory at the place is there and the files of the documents are in it, and everything
else is as before. -/
structure Filled (before after : Tree) (place : Location) (documents : List Document) : Prop where
  opened : ∀ x, x <+: place → after.at? x = some .directory
  written : ∀ document ∈ documents,
    after.at? (place ++ [document.fileName]) = some (.file (document.text ++ "\n").toUTF8)
  elsewhere : ∀ x, ¬x <+: place → (∀ document ∈ documents, x ≠ place ++ [document.fileName]) →
    after.at? x = before.at? x

/-- How an export ends in a world, by what was planned. -/
inductive Exports (world : World) (directory : String) :
    Except Fault (List Document) → Except Fault (List String) × World → Prop
  /-- Nothing was planned, and nothing is touched. -/
  | refused (fault : Fault) : Exports world directory (.error fault) (.error fault, world)
  /-- A file is in the way of the directory, and nothing is touched. -/
  | obstructed {documents : List Document}
      (hobstructed : world.tree.IsObstructed (world.place directory)) :
      Exports world directory (.ok documents) (.error .inaccessible, world)
  /-- A directory is in the way of a file, the first such, and only the files before it are
  written. -/
  | stopped {earlier later : List Document} {blocked : Document} {after : Tree}
      (hfree : ¬world.tree.IsObstructed (world.place directory))
      (hearlier : ∀ document ∈ earlier,
        world.tree.at? (world.place directory ++ [document.fileName]) ≠ some .directory)
      (hblocked :
        world.tree.at? (world.place directory ++ [blocked.fileName]) = some .directory)
      (hinside : ∀ document ∈ earlier ++ blocked :: later, LeadsInto after world directory document)
      (hfilled : Filled world.tree after (world.place directory) earlier)
      (hrest : ∀ document ∈ blocked :: later,
        after.at? (world.place directory ++ [document.fileName]) =
          world.tree.at? (world.place directory ++ [document.fileName])) :
      Exports world directory (.ok (earlier ++ blocked :: later))
        (.error .inaccessible, { world with tree := after })
  /-- Nothing is in the way, and all files are written, each at a path of its own, where it is read
  back. -/
  | complete {documents : List Document} {after : Tree}
      (hfree : ¬world.tree.IsObstructed (world.place directory))
      (hdocuments : ∀ document ∈ documents,
        world.tree.at? (world.place directory ++ [document.fileName]) ≠ some .directory)
      (hinside : ∀ document ∈ documents, LeadsInto after world directory document)
      (hfilled : Filled world.tree after (world.place directory) documents)
      (hdistinct : (documents.map (Document.pathIn directory)).Nodup)
      (hread : ∀ document ∈ documents,
        after.read? world.working (document.pathIn directory) =
          some (document.text ++ "\n").toUTF8) :
      Exports world directory (.ok documents)
        (.ok (documents.map (Document.pathIn directory)), { world with tree := after })

/-! ## How an export ends -/

section

variable {tree opened after : Tree} {document : Document}

/-- A file in a directory is not on the way to the directory. -/
theorem not_append_singleton_prefix {place : Location} {name : String} :
    ¬place ++ [name] <+: place := fun h => by
  simpa [Nat.succ_le_iff] using h.length_le

/-- In the opened directory, a document has a file of its own. -/
theorem leadsInto_of_opened (hworld : world.Admits directory) (hname : isName document.name = true)
    (hfits : document.Fits directory)
    (hopened : ∀ x, x <+: world.place directory → tree.at? x = some .directory) :
    LeadsInto tree world directory document := by
  rw [LeadsInto, Document.pathIn,
    Files.stepsFrom_join directory (Document.isFileName_fileName hname)]
  exact Tree.locate_append_singleton hworld.ordinary
    (Document.isOrdinary_fileName hfits.name) hopened

/-- A document can be written unless a directory is in the way of its file. -/
theorem LeadsInto.canWrite (h : LeadsInto tree world directory document)
    (hworld : world.Admits directory) (hname : isName document.name = true)
    (hfits : document.Fits directory)
    (hfree : tree.at? (world.place directory ++ [document.fileName]) ≠ some .directory) :
    tree.CanWrite world.working (document.pathIn directory)
      (world.place directory ++ [document.fileName]) where
  possible := Files.isImpossible_join directory (Document.isFileName_fileName hname)
    hworld.possible hfits.path
  not_slash := Files.endsInSlash_join directory (Document.isFileName_fileName hname)
  located := h
  not_directory := hfree

/-- Where a path leads depends on directories alone. -/
theorem LeadsInto.congr (h : LeadsInto tree world directory document)
    (hsame : tree.SameDirectories after) : LeadsInto after world directory document :=
  (hsame.locate_eq _).symm.trans h

/-- Documents that lead into the directory have distinct paths if they have distinct names. -/
theorem nodup_map_pathIn (hinside : ∀ document ∈ documents, LeadsInto tree world directory document)
    (hnames : (documents.map Document.name).Nodup) :
    (documents.map (Document.pathIn directory)).Nodup := by
  refine hnames.of_map.map_on fun first hfirst second hsecond hpath => ?_
  have hplace := hinside first hfirst
  rw [LeadsInto, hpath] at hplace
  have hname : second.name = first.name := by
    simpa [Document.fileName_inj] using Option.some.inj ((hinside second hsecond).symm.trans hplace)
  exact List.inj_on_of_nodup_map hnames hfirst hsecond hname.symm

/-- Of documents that are written into the directory, a place holds one that has its file there, or
else what it held before. -/
theorem at?_cases_of_writes
    (hinside : ∀ document ∈ documents, LeadsInto tree world directory document)
    (hwrites : tree.Writes world.working (documents.map (Document.entryIn directory)) after)
    (x : Location) :
    (∃ document ∈ documents, x = world.place directory ++ [document.fileName] ∧
      after.at? x = some (.file document.content)) ∨
    (∀ document ∈ documents, x ≠ world.place directory ++ [document.fileName]) ∧
      after.at? x = tree.at? x := by
  obtain ⟨earlier, path, content, later, hsplit, hlocated, -, hat⟩ | ⟨hnone, hat⟩ :=
    hwrites.at?_cases x
  · have hentry : (path, content) ∈ documents.map (Document.entryIn directory) := by simp [hsplit]
    obtain ⟨document, hdocument, hentry⟩ := List.mem_map.1 hentry
    obtain ⟨rfl, rfl⟩ := Prod.mk.inj hentry
    have hx := Option.some.inj (hlocated.symm.trans (hinside document hdocument))
    exact .inl ⟨document, hdocument, hx, hat⟩
  · refine .inr ⟨fun document hdocument hx => ?_, hat⟩
    exact hnone (document.entryIn directory) (List.mem_map_of_mem hdocument)
      (hx ▸ hinside document hdocument)

/-- Documents of distinct names that are written into an opened directory fill it. -/
theorem filled_of_writes (hopens : tree.Opens opened (world.place directory))
    (hnames : (documents.map Document.name).Nodup)
    (hinside : ∀ document ∈ documents, LeadsInto opened world directory document)
    (hwrites : opened.Writes world.working (documents.map (Document.entryIn directory)) after) :
    Filled tree after (world.place directory) documents where
  opened x hx := (hwrites.sameDirectories x).1 (hopens.on_way x hx)
  written document hdocument := by
    obtain ⟨other, hother, hfile, hat⟩ | ⟨hnone, -⟩ :=
      at?_cases_of_writes hinside hwrites (world.place directory ++ [document.fileName])
    · -- it is the file of no other document: that would have the same name
      have hname : document.name = other.name := by simpa [Document.fileName_inj] using hfile
      obtain rfl := List.inj_on_of_nodup_map hnames hdocument hother hname
      exact hat
    · exact absurd rfl (hnone document hdocument)
  elsewhere x hx hne := by
    obtain ⟨other, hother, hfile, -⟩ | ⟨-, hat⟩ := at?_cases_of_writes hinside hwrites x
    · exact absurd hfile (hne other hother)
    · rw [hat, hopens.elsewhere x hx]

/-- A file in the opened directory that could be written was not blocked before it was opened. -/
theorem not_directory_of_writes (hopens : tree.Opens opened (world.place directory))
    (hinside : ∀ document ∈ documents, LeadsInto opened world directory document)
    (hwrites : opened.Writes world.working (documents.map (Document.entryIn directory)) after) :
    ∀ document ∈ documents,
      tree.at? (world.place directory ++ [document.fileName]) ≠ some .directory := by
  intro document hdocument
  obtain ⟨place, hcan⟩ :=
    hwrites.canWrite (document.entryIn directory) (List.mem_map_of_mem hdocument)
  obtain rfl := Option.some.inj (hcan.located.symm.trans (hinside document hdocument))
  rw [← hopens.elsewhere _ not_append_singleton_prefix]
  exact hcan.not_directory

/-- If all files are written, the export is complete. -/
theorem Exports.of_writes (hworld : world.Admits directory)
    (hnamed : ∀ document ∈ documents, isName document.name = true)
    (hnames : (documents.map Document.name).Nodup)
    (hfits : ∀ document ∈ documents, document.Fits directory)
    (hfree : ¬world.tree.IsObstructed (world.place directory))
    (hopens : world.tree.Opens opened (world.place directory))
    (hinside : ∀ document ∈ documents, LeadsInto opened world directory document)
    (hwrites : opened.Writes world.working (documents.map (Document.entryIn directory)) after) :
    Exports world directory (.ok documents)
      (.ok (documents.map (Document.pathIn directory)), { world with tree := after }) := by
  have hafter : ∀ document ∈ documents, LeadsInto after world directory document :=
    fun document hdocument => (hinside document hdocument).congr hwrites.sameDirectories
  have hfilled := filled_of_writes hopens hnames hinside hwrites
  have hread : ∀ document ∈ documents,
      after.read? world.working (document.pathIn directory) =
        some (document.text ++ "\n").toUTF8 := by
    intro document hdocument
    have hat := hfilled.written document hdocument
    have hcan := (hafter document hdocument).canWrite hworld (hnamed document hdocument)
      (hfits document hdocument) (by simp [hat])
    exact hcan.read?_eq_some_iff.2 hat
  exact .complete hfree (not_directory_of_writes hopens hinside hwrites) hafter hfilled
    (nodup_map_pathIn hinside hnames) hread

/-- If a file cannot be written after others, the export is stopped by a directory. -/
theorem Exports.of_write?_eq_none {earlier later : List Document} {blocked : Document}
    (hworld : world.Admits directory) (hname : isName blocked.name = true)
    (hnames : ((earlier ++ blocked :: later).map Document.name).Nodup)
    (hfits : blocked.Fits directory)
    (hfree : ¬world.tree.IsObstructed (world.place directory))
    (hopens : world.tree.Opens opened (world.place directory))
    (hinside : ∀ document ∈ earlier ++ blocked :: later, LeadsInto opened world directory document)
    (hwrites : opened.Writes world.working (earlier.map (Document.entryIn directory)) after)
    (hnone : after.write? world.working (blocked.pathIn directory) blocked.content = none) :
    Exports world directory (.ok (earlier ++ blocked :: later))
      (.error .inaccessible, { world with tree := after }) := by
  have hearlier : ∀ document ∈ earlier, LeadsInto opened world directory document :=
    fun document hdocument => hinside document (List.mem_append_left _ hdocument)
  have hafter : ∀ document ∈ earlier ++ blocked :: later,
      LeadsInto after world directory document :=
    fun document hdocument => (hinside document hdocument).congr hwrites.sameDirectories
  rw [List.map_append, List.nodup_append] at hnames
  have hfilled := filled_of_writes hopens hnames.1 hearlier hwrites
  have hblocked : world.tree.at? (world.place directory ++ [blocked.fileName]) =
      some .directory := by
    rw [← hopens.elsewhere _ not_append_singleton_prefix, hwrites.sameDirectories _]
    by_contra hnot
    have hcan := (hafter blocked (by simp)).canWrite hworld hname hfits hnot
    rw [Tree.write?_eq_some_iff.2 ⟨_, hcan, rfl⟩] at hnone
    cases hnone
  refine .stopped hfree (not_directory_of_writes hopens hearlier hwrites) hblocked hafter hfilled ?_
  -- the other files have other names than those that were written
  intro document hdocument
  refine hfilled.elsewhere _ not_append_singleton_prefix fun other hother hfile => ?_
  have hname : document.name = other.name := by simpa [Document.fileName_inj] using hfile
  exact hnames.2.2 _ (List.mem_map_of_mem hother) _ (List.mem_map_of_mem hdocument) hname.symm

end

/-- **The effect of an export** into a directory of a directory tree, where no name or path is too
long. -/
theorem exportModel_exports (hworld : world.Admits directory)
    (hfits : ∀ documents, planned config model world = .ok documents →
      ∀ document ∈ documents, document.Fits directory) :
    Exports world directory (planned config model world)
      (simulate (exportModel config model directory) world) := by
  rw [simulate_exportModel]
  cases hplanned : planned config model world with
  | error fault => exact .refused fault
  | ok documents =>
    obtain ⟨⟨database, -, hconvert⟩, hnames⟩ := planned_eq_ok_iff.1 hplanned
    have hnamed := Converter.isName_of_convert hconvert
    have hfits := hfits documents hplanned
    obtain ⟨hobstructed, hmake⟩ | ⟨hfree, opened, hmake, hopens⟩ :=
      Tree.makeDirectories_cases hworld.closed hworld.working hworld.ordinary hworld.possible
    · rw [hmake]
      exact .obstructed hobstructed
    · rw [hmake]
      dsimp only
      have hinside : ∀ document ∈ documents, LeadsInto opened world directory document :=
        fun document hdocument => leadsInto_of_opened hworld (hnamed document hdocument)
          (hfits document hdocument) hopens.on_way
      obtain ⟨after, hwrites, hrun⟩ | ⟨earlier, blocked, later, after, rfl, hwrites, hnone, hrun⟩ :=
        simulate_mapM_writeDocument_cases directory documents { world with tree := opened }
      · rw [hrun]
        exact .of_writes hworld hnamed hnames hfits hfree hopens hinside hwrites
      · rw [hrun]
        exact .of_write?_eq_none hworld (hnamed blocked (by simp)) hnames (hfits blocked (by simp))
          hfree hopens hinside hwrites hnone

/-! ## A blocked file -/

/-- A table and an enum. -/
def pairModel : Database :=
  .ofTables [{ name := "A", columns := [{ name := "x", columnType := "B" }] }]
    [.ofNames "B" ["U"]]

/-- The model on standard input, and a directory in place of the file of the enum. -/
def blockedWorld : World :=
  { tree := Tree.put (Tree.put {} ["out"] .directory) ["out", "B.avsc"] .directory
    input := pairModel.write.toUTF8 }

/-- The documents of a table and an enum are planned. -/
theorem planned_blockedWorld :
    ∃ documents, planned ({} : Draft).build "-" blockedWorld = .ok documents ∧
      documents.map Document.name = ["A", "B"] := by
  have hinput : ∀ content, World.bytes? { blockedWorld with input := content } "-" = some content :=
    fun _ => rfl
  have hmodel : blockedWorld.model "-" = .ok pairModel := World.HasWritten.model_eq (hinput _)
  obtain ⟨documents, hconvert⟩ : ∃ documents,
      Converter.convert { config := ({} : Draft).build } pairModel = .ok documents := ⟨_, rfl⟩
  have hnames : documents.map Document.name = ["A", "B"] := Converter.map_name_of_convert hconvert
  have hdistinct : (documents.map Document.name).Nodup := by
    rw [hnames]
    decide
  exact ⟨documents, planned_eq_ok_iff.2 ⟨⟨pairModel, hmodel, hconvert⟩, hdistinct⟩, hnames⟩

/-- The effect of an export that is stopped at its second file. -/
theorem exportModel_exports_blocked :
    ∃ documents, planned ({} : Draft).build "-" blockedWorld = .ok documents ∧
      Exports blockedWorld "out" (.ok documents)
        (simulate (exportModel ({} : Draft).build "-" "out") blockedWorld) := by
  have hworld : blockedWorld.Admits "out" := by
    have hout := @Tree.IsClosed.put_directory {} [] "out" Tree.isClosed_empty rfl
    constructor
    · exact @Tree.IsClosed.put_directory _ ["out"] "B.avsc" hout rfl
    · rfl
    · have hplace : blockedWorld.place "out" = ["out"] := rfl
      rw [hplace, List.forall_mem_singleton]
      constructor <;> decide
    · exact .inr rfl
  obtain ⟨documents, hplanned, hnames⟩ := planned_blockedWorld
  refine ⟨documents, hplanned, ?_⟩
  rw [← hplanned]
  refine exportModel_exports hworld fun _ h document hdocument => ?_
  obtain rfl := Except.ok.inj (hplanned.symm.trans h)
  have hname : document.name ∈ ["A", "B"] := hnames ▸ List.mem_map_of_mem hdocument
  rw [List.mem_pair] at hname
  rcases hname with hname | hname
  · have hfile : document.fileName = "A" ++ ".avsc" := congrArg (· ++ ".avsc") hname
    exact ⟨by rw [hfile]; decide, by rw [Document.pathIn, hfile]; decide⟩
  · have hfile : document.fileName = "B" ++ ".avsc" := congrArg (· ++ ".avsc") hname
    exact ⟨by rw [hfile]; decide, by rw [Document.pathIn, hfile]; decide⟩

end RelationalAvro
