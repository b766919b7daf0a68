import Mathlib.Data.List.Forall2
import RelationalAvro.CommandLine.Run
import RelationalAvro.Proofs.CommandLine.Arguments
import RelationalAvro.Proofs.Export.Clashes
import RelationalAvro.Proofs.Export.Effect

/-!
# Printing and writing agree

A command line that writes files becomes one that prints by the flag for printing. Both runs come to
the same documents or end in the same fault, in which case neither touches anything. From there on
printing cannot fail, while writing can: a name may be repeated, the directory may not be there to
be made, and a file may not be there to be written (`CannotWrite`). If nothing of this happens, what
is printed is what the files hold, with a line break between each two.

The main statement is `run_agrees`.
-/

namespace RelationalAvro.CommandLine

open Files (Location Simulated Tree World stepsFrom)
open Model (Database)

/-! ## Runs -/

/-- The documents that are asked for, in a world. -/
def Options.documents (options : Options) (world : World) : Except Fault (List Document) := do
  let config ← options.config
  let database ← world.model options.model
  Converter.convert { config } database

section

variable {options : Options} {world : World}

/-- A run reports on what was done in the world. -/
theorem run_eq (options : Options) (world : World) :
    (run options : Simulated Report).run world =
      (Report.ofOutcome (simulate (perform options) world).1,
        (simulate (perform options) world).2) :=
  rfl

/-- The documents are those of the loaded model. -/
theorem documents_eq {config : Config} (h : options.config = .ok config) :
    options.documents world = world.model options.model >>= Converter.convert { config } := by
  rw [Options.documents, h]
  rfl

/-- Printing touches nothing. -/
theorem simulate_perform_print (h : options.print = true) :
    simulate (perform options) world = ((options.documents world).map listing, world) := by
  unfold perform
  rw [simulate_bind, simulate_liftExcept, h]
  cases hconfig : options.config with
  | error fault =>
    rw [Options.documents, hconfig]
    rfl
  | ok config =>
    have hload := simulate_loadModel_convert config options.model
      (fun documents => return listing documents) world
    rw [documents_eq hconfig]
    -- printing wins, whether or not there is a directory
    cases options.directory <;>
    · refine hload.trans ?_
      cases world.model options.model >>= Converter.convert { config } <;> rfl

/-- Writing comes to the same documents first. -/
theorem simulate_perform_write {directory : String}
    (hdirectory : options.directory = some directory)
    (hprint : options.print = false) :
    simulate (perform options) world = match options.documents world with
      | .error fault => (.error fault, world)
      | .ok documents => match simulate (writeDocuments directory documents) world with
        | (.ok _, next) => (.ok "", next)
        | (.error fault, next) => (.error fault, next) := by
  unfold perform
  rw [simulate_bind, simulate_liftExcept, hdirectory, hprint]
  cases hconfig : options.config with
  | error fault =>
    rw [Options.documents, hconfig]
    rfl
  | ok config =>
    dsimp only
    rw [simulate_bind, exportModel, simulate_loadModel_convert, documents_eq hconfig]
    cases world.model options.model >>= Converter.convert { config } with
    | error fault => rfl
    | ok documents =>
      dsimp only
      rcases simulate (writeDocuments directory documents) world with ⟨_ | _, next⟩ <;> rfl

end

/-! ## Writing -/

/-- Why documents cannot be written into the directory: a name is repeated, the directory is not
there and cannot be made, or the file of one of them, after those of the documents before it, cannot
be written. -/
inductive CannotWrite (world : World) (directory : String) (documents : List Document) :
    Fault → Prop
  | repeated {name : String} (hname : firstRepeated? (documents.map Document.name) = some name) :
      CannotWrite world directory documents (.duplicateOutput name)
  | missing {tree : Tree} (hdistinct : (documents.map Document.name).Nodup)
      (hmake : world.tree.makeDirectories world.working directory = (false, tree)) :
      CannotWrite world directory documents .inaccessible
  | blocked {made tree : Tree} {earlier later : List Document} {document : Document}
      (hdistinct : (documents.map Document.name).Nodup)
      (hmake : world.tree.makeDirectories world.working directory = (true, made))
      (hdocuments : documents = earlier ++ document :: later)
      (hwrites : made.Writes world.working (earlier.map (Document.entryIn directory)) tree)
      (hblocked : tree.write? world.working (document.pathIn directory) document.content = none) :
      CannotWrite world directory documents .inaccessible

variable {world after : World} {directory : String} {documents : List Document}

/-- Either something is in the way of writing, or it succeeds. -/
theorem simulate_writeDocuments_cases (world : World) (directory : String)
    (documents : List Document) :
    (∃ fault after, CannotWrite world directory documents fault ∧
      simulate (writeDocuments directory documents) world = (.error fault, after)) ∨
    ∃ paths after, simulate (writeDocuments directory documents) world = (.ok paths, after) := by
  rw [simulate_writeDocuments]
  cases hname : firstRepeated? (documents.map Document.name) with
  | some name => exact .inl ⟨_, _, .repeated hname, rfl⟩
  | none =>
    have hdistinct := firstRepeated?_eq_none_iff.1 hname
    rcases hmake : world.tree.makeDirectories world.working directory with ⟨_ | _, made⟩
    · exact .inl ⟨_, _, .missing hdistinct hmake, rfl⟩
    · obtain ⟨tree, -, hrun⟩ | ⟨earlier, document, later, tree, hsplit, hwrites, hblocked, hrun⟩ :=
        simulate_mapM_writeDocument_cases directory documents { world with tree := made }
      · exact .inr ⟨_, _, hrun⟩
      · exact .inl ⟨_, _, .blocked hdistinct hmake hsplit hwrites hblocked, hrun⟩

/-- Documents of distinct names have files of their own, wherever the path of the directory leads.
So each is read back as it is. -/
theorem readIn?_of_writeDocuments {paths : List String}
    (hnamed : ∀ document ∈ documents, isName document.name = true)
    (h : simulate (writeDocuments directory documents) world = (.ok paths, after)) :
    ∀ document ∈ documents, document.readIn? after directory = some document.content := by
  obtain ⟨hdistinct, -, made, -, hwrites⟩ := writes_of_writeDocuments h
  have hplace : ∀ document ∈ documents, ∃ place,
      after.tree.locate (stepsFrom after.working (document.pathIn directory)) =
        some (place ++ [document.fileName]) := by
    intro document hdocument
    obtain ⟨place, hcan⟩ :=
      hwrites.canWrite (document.entryIn directory) (List.mem_map_of_mem hdocument)
    have hlocated := (hcan.congr hwrites.sameDirectories).located
    have hsteps := Files.stepsFrom_join directory
      (Document.isFileName_fileName (hnamed document hdocument)) after.working
    obtain ⟨d, rfl⟩ := Tree.exists_eq_append_of_locateFrom document.fileName_ne_dots.1
      document.fileName_ne_dots.2 _ (hsteps ▸ hlocated)
    exact ⟨d, hlocated⟩
  intro document hdocument
  obtain ⟨earlier, entry, later, hsplit, hshares, -, hread⟩ :=
    hwrites.read?_of_mem (List.mem_map_of_mem hdocument)
  have hentry : entry ∈ documents.map (Document.entryIn directory) := by simp [hsplit]
  obtain ⟨last, hlast, rfl⟩ := List.mem_map.1 hentry
  -- the last document at the place of this one has its file name, so it is this one
  obtain ⟨place, hplaced⟩ := hplace document hdocument
  obtain ⟨there, hthere⟩ := hplace last hlast
  have hsame := Option.some.inj (hthere.symm.trans (hshares.trans hplaced))
  have hname : last.fileName = document.fileName := by
    simpa using (List.append_inj' hsame rfl).2
  obtain rfl := List.inj_on_of_nodup_map hdistinct hlast hdocument (Document.fileName_inj.1 hname)
  exact hread

/-- Writing changes no other file. -/
theorem at?_of_writeDocuments {paths : List String}
    (h : simulate (writeDocuments directory documents) world = (.ok paths, after)) {x : Location}
    (hx : ∀ document ∈ documents,
      after.tree.locate (stepsFrom after.working (document.pathIn directory)) ≠ some x)
    (content : ByteArray) :
    after.tree.at? x = some (.file content) ↔ world.tree.at? x = some (.file content) := by
  obtain ⟨-, -, made, hmake, hwrites⟩ := writes_of_writeDocuments h
  have hfiles := Tree.sameFiles_makeDirectories world.tree world.working directory x content
  rw [hmake] at hfiles
  obtain ⟨earlier, path, text, later, hsplit, hlocated, -⟩ | ⟨-, hat⟩ := hwrites.at?_cases x
  · have hentry : (path, text) ∈ documents.map (Document.entryIn directory) := by simp [hsplit]
    obtain ⟨document, hdocument, heq⟩ := List.mem_map.1 hentry
    obtain ⟨rfl, -⟩ := Prod.mk.inj heq
    rw [hwrites.sameDirectories.locate_eq] at hlocated
    exact absurd hlocated (hx document hdocument)
  · rw [hat]
    exact hfiles.symm

/-! ## Both runs -/

/-- With at least one document, what is printed is the content of the files with a line break
between each two. -/
theorem listing_eq (h : documents ≠ []) :
    listing documents = "\n".intercalate (documents.map fun document => document.text ++ "\n") := by
  unfold listing
  induction documents with
  | nil => exact absurd rfl h
  | cons document rest ih =>
    cases rest with
    | nil => simp
    | cons next rest =>
      have hlines : "\n\n" = "\n" ++ "\n" := rfl
      have hrest := ih (by simp)
      rw [List.map_cons, String.intercalate_cons_of_ne_nil (by simp), String.append_assoc, hrest,
        List.map_cons (a := document), String.intercalate_cons_of_ne_nil (by simp), hlines]
      simp only [String.append_assoc]

/-- How a run that writes ends where one that prints succeeds: in success, or because something is
in the way of writing. In success, what was printed is what the files hold, first those of the
tables and then those of the enums, and these files are the only ones that have changed. -/
structure SucceedsAlike (options : Options) (world : World) (directory : String)
    (database : Database)
    (documents : List Document) (written printed : Report × World) : Prop where
  model_eq : world.model options.model = .ok database
  documents_eq : options.documents world = .ok documents
  names_eq : documents.map Document.name =
    database.tables.map Model.Table.name ++ database.enums.map Model.Enum.name
  status_cases : written.1 = { status := 0, output := "", errors := "" } ∨
    ∃ fault, CannotWrite world directory documents fault ∧
      written.1 = Report.ofOutcome (.error fault)
  texts : written.1.status = 0 → database.tables ≠ [] ∨ database.enums ≠ [] →
    ∃ texts : List String,
      List.Forall₂ (fun document text => document.readIn? written.2 directory = some text.toUTF8)
        documents texts ∧
      printed.1.output = "\n".intercalate texts
  elsewhere : written.1.status = 0 → ∀ x,
    (∀ document ∈ documents, written.2.tree.locate
      (stepsFrom written.2.working (document.pathIn directory)) ≠ some x) →
    ∀ content, written.2.tree.at? x = some (.file content) ↔ world.tree.at? x = some (.file content)

/-- What is common to two runs from the same world for the same options, one that writes into the
directory and one that prints. -/
structure Agree (options : Options) (world : World) (directory : String)
    (written printed : Report × World) : Prop where
  untouched : printed.2 = world
  fails_alike : printed.1.status ≠ 0 → printed.1.output = "" ∧ written = printed
  succeeds_alike : printed.1.status = 0 → ∃ database documents,
    SucceedsAlike options world directory database documents written printed

/-- The documents that are asked for are those of a model. -/
theorem exists_database_of_documents {options : Options}
    (h : options.documents world = .ok documents) :
    ∃ config database, world.model options.model = .ok database ∧
      Converter.convert { config } database = .ok documents := by
  obtain ⟨config, -, h⟩ := bind_eq_ok_iff.1 h
  obtain ⟨database, hmodel, hconvert⟩ := bind_eq_ok_iff.1 h
  exact ⟨config, database, hmodel, hconvert⟩

/-- With the documents at hand, writing them ends as it may. -/
theorem succeedsAlike_of_documents {options : Options} {printed : Report × World}
    (hdirectory : options.directory = some directory) (hprint : options.print = false)
    (hdocuments : options.documents world = .ok documents)
    (hprinted : printed.1.output = listing documents) :
    ∃ database, SucceedsAlike options world directory database documents
      ((run options : Simulated Report).run world) printed := by
  obtain ⟨config, database, hmodel, hconvert⟩ := exists_database_of_documents hdocuments
  have hnames := Converter.map_name_of_convert hconvert
  have hperform : simulate (perform options) world = _ := simulate_perform_write hdirectory hprint
  rw [hdocuments] at hperform
  dsimp only at hperform
  refine ⟨database, ?_⟩
  obtain ⟨fault, after, hcannot, hrun⟩ | ⟨paths, after, hrun⟩ :=
    -- printing has succeeded, and writing can still fail
    simulate_writeDocuments_cases world directory documents
  · rw [hrun] at hperform
    have hstatus : ((run options : Simulated Report).run world).1.status ≠ 0 := by
      rw [run_eq, hperform]
      simp [Report.ofOutcome]
    refine ⟨hmodel, hdocuments, hnames, .inr ⟨fault, hcannot, ?_⟩, fun h => absurd h hstatus,
      fun h => absurd h hstatus⟩
    rw [run_eq, hperform]
  · rw [hrun] at hperform
    have hread := readIn?_of_writeDocuments (Converter.isName_of_convert hconvert) hrun
    rw [run_eq, hperform]
    refine ⟨hmodel, hdocuments, hnames, .inl rfl, fun _ hne =>
      ⟨documents.map fun document => document.text ++ "\n", ?_, ?_⟩,
      fun _ x hx => at?_of_writeDocuments hrun hx⟩
    · rw [List.forall₂_map_right_iff, List.forall₂_same]
      exact hread
    · have hdocument : documents ≠ [] := by
        rintro rfl
        simp at hnames
        tauto
      rw [hprinted, listing_eq hdocument]

/-- **Printing and writing agree**, whatever the arguments ask for and wherever the model is. -/
theorem run_agrees {writing printing : List String} {options printed : Options} {world : World}
    (h : AlsoPrints writing printing) (hwriting : Options.ofArguments? writing = some options)
    (hprint : options.print = false) (hprinting : Options.ofArguments? printing = some printed) :
    ∃ directory, options.directory = some directory ∧
      Agree options world directory ((run options : Simulated Report).run world)
        ((run printed : Simulated Report).run world) := by
  obtain ⟨directory, hdirectory, hprinted⟩ := options_of_alsoPrints h hwriting hprint hprinting
  -- the two lines ask for the same documents
  have hflag : printed.print = true := by
    obtain rfl | rfl := hprinted <;> rfl
  have hsame : printed.documents world = options.documents world := by
    obtain rfl | rfl := hprinted <;> rfl
  have hrun : (run printed : Simulated Report).run world =
      (Report.ofOutcome ((options.documents world).map listing), world) := by
    rw [run_eq, simulate_perform_print hflag, hsame]
  refine ⟨directory, hdirectory, ?_⟩
  rw [hrun]
  cases hdocuments : options.documents world with
  | error fault =>
    have hstatus : (Report.ofOutcome ((Except.error fault : Except Fault (List Document)).map
        listing)).status ≠ 0 := by
      simp [Except.map, Report.ofOutcome]
    refine ⟨rfl, fun _ => ⟨rfl, ?_⟩, fun h => absurd h hstatus⟩
    rw [run_eq, simulate_perform_write hdirectory hprint, hdocuments]
    rfl
  | ok documents =>
    refine ⟨rfl, fun hstatus => absurd rfl hstatus, fun _ => ?_⟩
    have houtput : (Report.ofOutcome ((Except.ok documents).map listing), world).1.output =
        listing documents := rfl
    obtain ⟨database, halike⟩ :=
      succeedsAlike_of_documents hdirectory hprint hdocuments houtput
    exact ⟨database, documents, halike⟩

/-! ## A table and an enum -/

/-- The model of a table and an enum on standard input, and nothing else. -/
def pairWorld : World :=
  { input := pairModel.write.toUTF8 }

/-- The model is the one on standard input. -/
theorem model_pairWorld : pairWorld.model "-" = .ok pairModel := by
  have hinput : ∀ content, World.bytes? { pairWorld with input := content } "-" = some content :=
    fun _ => rfl
  exact World.HasWritten.model_eq (hinput _)

/-- Both documents can be written. -/
theorem simulate_writeDocuments_pair {first second : Document} (hfirst : first.name = "A")
    (hsecond : second.name = "B") :
    ∃ paths after, simulate (writeDocuments "out" [first, second]) pairWorld =
      (.ok paths, after) := by
  have hrepeated : firstRepeated? ([first, second].map Document.name) = none := by
    rw [List.map_cons, List.map_singleton, hfirst, hsecond]
    decide
  have hmake : pairWorld.tree.makeDirectories pairWorld.working "out" =
      (true, { nodes := [(["out"], .directory)] }) := rfl
  have hfirst' : first.pathIn "out" = "out/A.avsc" := by
    rw [Document.pathIn, Document.fileName, hfirst]
    rfl
  have hsecond' : second.pathIn "out" = "out/B.avsc" := by
    rw [Document.pathIn, Document.fileName, hsecond]
    rfl
  -- the contents are left open here, so that they are not evaluated
  have hwriteFirst : ∀ content,
      Tree.write? { nodes := [(["out"], .directory)] } [] "out/A.avsc" content =
      some { nodes := [(["out"], .directory), (["out", "A.avsc"], .file content)] } := fun _ => rfl
  have hwriteSecond : ∀ before content, Tree.write?
      { nodes := [(["out"], .directory), (["out", "A.avsc"], .file before)] }
        [] "out/B.avsc" content =
      some { nodes := [(["out"], .directory), (["out", "A.avsc"], .file before),
        (["out", "B.avsc"], .file content)] } := fun _ _ => rfl
  have hworking : pairWorld.working = [] := rfl
  rw [simulate_writeDocuments, hrepeated, hmake]
  dsimp only
  rw [List.mapM_cons, simulate_bind, simulate_writeDocument, hfirst', hworking, hwriteFirst]
  dsimp only
  rw [simulate_bind, List.mapM_cons, simulate_bind, simulate_writeDocument, hsecond', hwriteSecond]
  exact ⟨_, _, rfl⟩

/-- The printed texts of a table and an enum are the contents of their files. -/
theorem run_agrees_pair :
    ∃ options printed documents texts,
      Options.ofArguments? ["-", "out"] = some options ∧
      Options.ofArguments? ["--stdout", "-"] = some printed ∧
      documents.map Document.name = ["A", "B"] ∧
      List.Forall₂ (fun document (text : String) => document.readIn?
        ((run options : Simulated Report).run pairWorld).2 "out" = some text.toUTF8)
        documents texts ∧
      (run printed : Simulated Report).run pairWorld =
        ({ status := 0, output := "\n".intercalate texts, errors := "" }, pairWorld) := by
  obtain ⟨options, hoptions, hmodel, hout, hprint, hconfig⟩ : ∃ options,
      Options.ofArguments? ["-", "out"] = some options ∧ options.model = "-" ∧
        options.directory = some "out" ∧ options.print = false ∧
        options.config = .ok ({} : Draft).build := ⟨_, rfl, rfl, rfl, rfl, rfl⟩
  obtain ⟨printed, hprinted, hflag, hmodel', hconfig'⟩ : ∃ printed,
      Options.ofArguments? ["--stdout", "-"] = some printed ∧ printed.print = true ∧
        printed.model = "-" ∧ printed.config = .ok ({} : Draft).build := ⟨_, rfl, rfl, rfl, rfl⟩
  have halso : AlsoPrints ["-", "out"] ["--stdout", "-"] :=
    ⟨[], ["-"], List.not_mem_nil,
      @MayDropDirectory.dropped _ ["-"] [] [.positional "-"] "-" "out" rfl rfl rfl rfl, rfl⟩
  obtain ⟨directory, hdirectory, hagree⟩ :
      ∃ directory, options.directory = some directory ∧ Agree options pairWorld directory _ _ :=
    run_agrees halso hoptions hprint hprinted
  obtain rfl : "out" = directory := Option.some.inj (hout.symm.trans hdirectory)
  obtain ⟨documents, hconvert⟩ : ∃ documents,
      Converter.convert { config := ({} : Draft).build } pairModel = .ok documents := ⟨_, rfl⟩
  have hdocuments : options.documents pairWorld = .ok documents := by
    rw [Options.documents, hconfig, hmodel, model_pairWorld]
    exact hconvert
  have hdocuments' : printed.documents pairWorld = .ok documents := by
    rw [Options.documents, hconfig', hmodel', model_pairWorld]
    exact hconvert
  have hnames : documents.map Document.name = ["A", "B"] := Converter.map_name_of_convert hconvert
  have hrun : (run printed : Simulated Report).run pairWorld =
      ({ status := 0, output := listing documents, errors := "" }, pairWorld) := by
    rw [run_eq, simulate_perform_print hflag, hdocuments']
    rfl
  -- the run that writes succeeds as well, since both documents can be written
  have hstatus : ((run options : Simulated Report).run pairWorld).1.status = 0 := by
    obtain ⟨first, rest, rfl, hfirst, hrest⟩ := List.map_eq_cons_iff.1 hnames
    obtain ⟨second, none, rfl, hsecond, hnone⟩ := List.map_eq_cons_iff.1 hrest
    obtain rfl := List.map_eq_nil_iff.1 hnone
    obtain ⟨paths, after, hwrite⟩ := simulate_writeDocuments_pair hfirst hsecond
    rw [run_eq, simulate_perform_write hout hprint, hdocuments]
    dsimp only
    rw [hwrite]
    rfl
  obtain ⟨database, same, halike⟩ := hagree.succeeds_alike (by rw [hrun])
  obtain rfl : documents = same := Except.ok.inj (hdocuments.symm.trans halike.documents_eq)
  obtain rfl : pairModel = database :=
    Except.ok.inj ((hmodel ▸ model_pairWorld).symm.trans halike.model_eq)
  obtain ⟨texts, hfiles, houtput⟩ := halike.texts hstatus (.inl (List.cons_ne_nil _ _))
  refine ⟨options, printed, documents, texts, hoptions, hprinted, hnames, hfiles, ?_⟩
  rw [hrun] at houtput ⊢
  rw [← houtput]

end RelationalAvro.CommandLine
