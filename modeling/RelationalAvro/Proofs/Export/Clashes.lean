import RelationalAvro.Proofs.Export.Simulation

/-!
# Documents that share a file

Documents of the same name are refused before anything is written, but names that differ can still
lead to the same file: `a` and `./a` do, in any directory. Such a file holds the document that was
written last, so documents are read back as they are if and only if those that share a file have the
same text: `writeDocuments_readBack`.
-/

namespace RelationalAvro

open Files (World stepsFrom)

/-- The content of a file tells the text of its document. -/
theorem Document.text_eq_of_content_eq {first second : Document}
    (h : first.content = second.content) : first.text = second.text :=
  (String.append_left_inj "\n").1 (String.toByteArray_inj.1 h)

/-- The documents have the same file in the directory. -/
def Document.SharesFile (world : World) (directory : String) (first second : Document) : Prop :=
  world.tree.locate (stepsFrom world.working (first.pathIn directory)) =
    world.tree.locate (stepsFrom world.working (second.pathIn directory))

/-- What is read at the path of the document in the directory. -/
def Document.readIn? (world : World) (directory : String) (document : Document) :
    Option ByteArray :=
  world.tree.read? world.working (document.pathIn directory)

variable {directory : String} {documents : List Document} {world after : World}
  {paths : List String}

/-- Where documents are written, no name is repeated, the directory has been made, and their files
are written into it one after another. -/
theorem writes_of_writeDocuments
    (h : simulate (writeDocuments directory documents) world = (.ok paths, after)) :
    (documents.map Document.name).Nodup ∧ paths = documents.map (Document.pathIn directory) ∧
      ∃ made, world.tree.makeDirectories world.working directory = (true, made) ∧
        made.Writes after.working (documents.map (Document.entryIn directory)) after.tree := by
  rw [simulate_writeDocuments] at h
  split at h
  · cases h
  · cases h
  · rename_i made hnodup hmade
    refine ⟨firstRepeated?_eq_none_iff.1 hnodup, ?_⟩
    obtain ⟨tree, hwrites, hrun⟩ | ⟨earlier, blocked, later, tree, -, -, -, hrun⟩ :=
      simulate_mapM_writeDocument_cases directory documents { world with tree := made }
    · rw [hrun] at h
      cases h
      exact ⟨rfl, made, hmade, hwrites⟩
    · rw [hrun] at h
      cases h

/-- **What is read back**: at the path of a document, the last document that shares its file. So all
are read back as they are just if those that share a file have the same text. -/
theorem writeDocuments_readBack
    (h : simulate (writeDocuments directory documents) world = (.ok paths, after)) :
    paths = documents.map (Document.pathIn directory) ∧
    (∀ document ∈ documents, ∃ earlier last later, documents = earlier ++ last :: later ∧
      last.SharesFile after directory document ∧
      (∀ other ∈ later, ¬other.SharesFile after directory document) ∧
      document.readIn? after directory = some last.content) ∧
    ((∀ document ∈ documents, document.readIn? after directory = some document.content) ↔
      ∀ first ∈ documents, ∀ second ∈ documents,
        first.SharesFile after directory second → first.text = second.text) := by
  obtain ⟨-, hpaths, made, -, hwrites⟩ := writes_of_writeDocuments h
  have hlast : ∀ document ∈ documents, ∃ earlier last later, documents = earlier ++ last :: later ∧
      last.SharesFile after directory document ∧
      (∀ other ∈ later, ¬other.SharesFile after directory document) ∧
      document.readIn? after directory = some last.content := by
    intro document hdocument
    -- of all writes to the same place the last one counts
    obtain ⟨earlier, last, later, hsplit, hshares, hlater, hread⟩ :=
      hwrites.read?_of_mem (List.mem_map_of_mem hdocument)
    obtain ⟨earlier, rest, rfl, -, hrest⟩ := List.map_eq_append_iff.1 hsplit
    obtain ⟨last, later, rfl, rfl, rfl⟩ := List.map_eq_cons_iff.1 hrest
    exact ⟨earlier, last, later, rfl, hshares, fun other hother =>
      hlater (other.entryIn directory) (List.mem_map_of_mem hother), hread⟩
  refine ⟨hpaths, hlast, ?_, ?_⟩
  · -- two documents with one file are both read back from it
    intro hown first hfirst second hsecond hshares
    obtain ⟨place, hcan⟩ := hwrites.canWrite (first.entryIn directory) (List.mem_map_of_mem hfirst)
    obtain ⟨there, hthere⟩ :=
      hwrites.canWrite (second.entryIn directory) (List.mem_map_of_mem hsecond)
    have hcan := hcan.congr hwrites.sameDirectories
    have hthere := hthere.congr hwrites.sameDirectories
    obtain rfl : place = there :=
      Option.some.inj (hcan.located.symm.trans (hshares.trans hthere.located))
    have hcontent := (hcan.read?_eq_some_iff.1 (hown first hfirst)).symm.trans
      (hthere.read?_eq_some_iff.1 (hown second hsecond))
    simp only [Option.some.injEq, Files.Node.file.injEq] at hcontent
    exact Document.text_eq_of_content_eq hcontent
  · intro hsame document hdocument
    obtain ⟨earlier, last, later, rfl, hshares, -, hread⟩ := hlast document hdocument
    rw [hread, Document.content, Document.content,
      hsame last (by simp) document hdocument hshares]

/-! ## One file for two documents -/

/-- Two documents of different names that have the same file in any directory. -/
def twins : List Document :=
  [{ name := "a", text := "1" }, { name := "./a", text := "2" }]

/-- The world with one file in one directory. -/
def twinsAfter : World :=
  { tree := { nodes := [(["out"], .directory), (["out", "a.avsc"], .file "2\n".toUTF8)] } }

/-- Two documents with one file are both written, the second over the first. -/
theorem simulate_twins :
    simulate (writeDocuments "out" twins) {} =
      (.ok ["out/a.avsc", "out/./a.avsc"], twinsAfter) := by
  rfl

/-- What is read back of two documents with one file. -/
theorem writeDocuments_readBack_twins :
    simulate (writeDocuments "out" twins) {} = (.ok ["out/a.avsc", "out/./a.avsc"], twinsAfter) ∧
      ∀ document ∈ twins, ∃ earlier last later, twins = earlier ++ last :: later ∧
        last.SharesFile twinsAfter "out" document ∧
        document.readIn? twinsAfter "out" = some last.content := by
  refine ⟨simulate_twins, fun document hdocument => ?_⟩
  obtain ⟨earlier, last, later, hsplit, hshares, -, hread⟩ :=
    (writeDocuments_readBack simulate_twins).2.1 document hdocument
  exact ⟨earlier, last, later, hsplit, hshares, hread⟩

/-- Both twins are reported as written, but at the path of the first the second is read. -/
theorem clobbered_twins :
    ∃ after, simulate (writeDocuments "out" twins) {} =
        (.ok ["out/a.avsc", "out/./a.avsc"], after) ∧
      after.tree.read? after.working "out/a.avsc" = some "2\n".toUTF8 ∧
      ¬∀ document ∈ twins, document.readIn? after "out" = some document.content := by
  refine ⟨twinsAfter, simulate_twins, rfl, fun hown => ?_⟩
  have hfirst : some "2\n".toUTF8 = some "1\n".toUTF8 :=
    hown { name := "a", text := "1" } (by simp [twins])
  exact absurd (String.toByteArray_inj.1 (Option.some.inj hfirst)) (by decide)

end RelationalAvro
