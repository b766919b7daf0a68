import RelationalAvro.Files.Path

/-!
# Paths of files in a directory

The path of a file seen from a directory leads to the directory and one step on, which is the name
of the file (`stepsFrom_join`), whatever slashes the path of the directory ends in.
-/

namespace RelationalAvro.Files

/-- A name that a file can have, whatever its length: not empty, no slash and no null character. -/
structure IsFileName (name : String) : Prop where
  not_empty : name ≠ ""
  no_slash : '/' ∉ name.toList
  no_null : '\x00' ∉ name.toList

section

variable {name : String} (directory : String)

/-- A file name is no absolute path. -/
theorem IsFileName.isAbsolute_eq (h : IsFileName name) : isAbsolute name = false := by
  unfold isAbsolute
  cases hname : name.toList with
  | nil => rfl
  | cons c rest =>
    have hslash := h.no_slash
    rw [hname, List.mem_cons, not_or] at hslash
    simpa using Ne.symm hslash.1

/-- A file name is put behind the directory and a slash, unless the directory is empty or ends in
one. -/
theorem join_eq (h : IsFileName name) :
    join directory name =
      if directory = "" ∨ endsInSlash directory = true then directory ++ name
      else directory ++ "/" ++ name := by
  simp [join, h.isAbsolute_eq]

/-- In the empty directory a file name is the path. -/
theorem join_empty (h : IsFileName name) : join "" name = name := by
  simp [join_eq "" h]

/-- Unless the directory is left open, its path comes first, up to a slash before the name. -/
theorem exists_toList_join (h : IsFileName name) (hdirectory : directory ≠ "") :
    ∃ before, (join directory name).toList = before ++ '/' :: name.toList ∧
      (directory.toList = before ∨ directory.toList = before ++ ['/']) := by
  rw [join_eq directory h]
  by_cases hslash : endsInSlash directory = true
  · obtain ⟨before, hbefore⟩ := List.getLast?_eq_some_iff.1 (eq_of_beq hslash)
    exact ⟨before, by simp [hslash, hbefore], .inr hbefore⟩
  · exact ⟨directory.toList, by simp [hdirectory, hslash], .inl rfl⟩

/-- The joined path has the steps of the directory, and then the file. -/
theorem steps_join (h : IsFileName name) :
    steps (join directory name) = steps directory ++ [name] := by
  have hpiece : name.toList.isEmpty = false := by simpa using h.not_empty
  by_cases hdirectory : directory = ""
  · subst hdirectory
    rw [join_empty h, steps, Text.segments_of_not_mem h.no_slash]
    simp [hpiece, steps, Text.segments]
  · obtain ⟨before, hjoin, hbefore⟩ := exists_toList_join directory h hdirectory
    have hsteps : steps directory =
        ((Text.segments '/' before).filter fun step => !step.isEmpty).map String.ofList := by
      rcases hbefore with hbefore | hbefore
      · rw [steps, hbefore]
      · -- the slash at the end adds an empty step, which does not count
        rw [steps, hbefore, Text.segments_append_cons before (by simp)]
        simp
    rw [hsteps, steps, hjoin, Text.segments_append_cons before h.no_slash]
    simp [hpiece]

/-- The joined path is absolute if the directory is. -/
theorem isAbsolute_join (h : IsFileName name) :
    isAbsolute (join directory name) = isAbsolute directory := by
  by_cases hdirectory : directory = ""
  · subst hdirectory
    rw [join_empty h, h.isAbsolute_eq]
    rfl
  · obtain ⟨before, hjoin, hbefore | hbefore⟩ := exists_toList_join directory h hdirectory
    · have hne : before ≠ [] := by simpa [← hbefore] using hdirectory
      obtain ⟨c, rest, rfl⟩ := List.exists_cons_of_ne_nil hne
      simp [isAbsolute, hjoin, hbefore]
    · cases before <;> simp [isAbsolute, hjoin, hbefore]

/-- The file lies in the directory. -/
theorem stepsFrom_join (h : IsFileName name) (working : Location) :
    stepsFrom working (join directory name) = stepsFrom working directory ++ [name] := by
  unfold stepsFrom
  rw [isAbsolute_join directory h, steps_join directory h]
  split <;> simp

/-- The joined path does not end in a slash. -/
theorem endsInSlash_join (h : IsFileName name) : endsInSlash (join directory name) = false := by
  -- whatever stands before the name, the path ends as the name does
  have hends : ∀ before : String, endsInSlash (before ++ name) = false := by
    intro before
    obtain ⟨init, last, hlast⟩ :=
      (List.eq_nil_or_concat name.toList).resolve_left (by simpa using h.not_empty)
    have hslash : last ≠ '/' := fun heq => h.no_slash (by simp [hlast, heq])
    simp [endsInSlash, hlast, hslash]
  rw [join_eq directory h]
  split <;> exact hends _

/-- The joined path is possible if the directory is and the path is not too long. -/
theorem isImpossible_join (h : IsFileName name)
    (hdirectory : directory = "" ∨ isImpossible directory = false)
    (hlength : (join directory name).utf8ByteSize ≤ maxPathBytes) :
    isImpossible (join directory name) = false := by
  have hnull : '\x00' ∉ directory.toList := by
    rcases hdirectory with rfl | hdirectory
    · simp
    · simp only [isImpossible, Bool.or_eq_false_iff] at hdirectory
      simpa using hdirectory.1.2
  have hjoin : '\x00' ∉ (join directory name).toList ∧ join directory name ≠ "" := by
    rw [join_eq directory h]
    split <;> simp [hnull, h.no_null, h.not_empty]
  simp [isImpossible, hjoin, hlength]

end

end RelationalAvro.Files
