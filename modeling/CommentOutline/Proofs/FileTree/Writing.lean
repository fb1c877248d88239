import CommentOutline.FileTree.Basic

set_option autoImplicit false

/-! Writing a file. A write changes the tree at one place only, and that place is no directory, so
every path that led somewhere leads there again and the file is read as it was written. -/

namespace CommentOutline.FileTree.Tree

variable {tree later : Tree} {base place other : Place} {entry : Entry} {path : Path}
variable {content : List UInt8}

/-! ### Entries -/

theorem entry?_put_self (below : place ≠ []) : entry? (tree.put place entry) place = some entry := by
  unfold put entry?
  rw [if_neg below, List.lookup_cons_self]

theorem lookup_erase_other (differs : other ≠ place) :
    (tree.erase place).entries.lookup other = tree.entries.lookup other := by
  obtain ⟨entries⟩ := tree
  unfold erase
  induction entries with
  | nil => rfl
  | cons first entries ih =>
      obtain ⟨here, held⟩ := first
      rw [List.filter_cons]
      by_cases same : here = place
      · have passed : (other == here) = false := beq_eq_false_iff_ne.mpr (same ▸ differs)
        rw [if_neg (by simpa using same), List.lookup_cons, passed]
        exact ih
      · rw [if_pos (by simpa using same), List.lookup_cons, List.lookup_cons, ih]

theorem put_put (tree : Tree) (place : Place) (entry later : Entry) :
    (tree.put place entry).put place later = tree.put place later := by
  simp only [put, erase, List.filter_cons, decide_not, decide_true, Bool.not_true,
    Bool.false_eq_true, if_false, List.filter_filter, Bool.and_self]

theorem entry?_put_other (differs : other ≠ place) :
    entry? (tree.put place entry) other = tree.entry? other := by
  have passed : (other == place) = false := beq_eq_false_iff_ne.mpr differs
  unfold put entry?
  rw [List.lookup_cons, passed]
  split
  · rfl
  · exact lookup_erase_other differs

/-! ### Paths -/

/-- A walk only goes on from directories, so it does not notice what is put where none is. -/
theorem walk_put {start goal : Place} {parts : List String}
    (noDirectory : tree.entry? place ≠ some .directory)
    (walked : tree.walk path start parts = .ok goal) :
    (tree.put place entry).walk path start parts = .ok goal := by
  induction parts generalizing start with
  | nil => exact walked
  | cons part parts ih =>
      unfold walk at walked ⊢
      split at walked
      · rename_i directory
        have differs : start ≠ place := by
          rintro rfl
          exact noDirectory directory
        rw [entry?_put_other differs, directory]
        exact ih walked
      · cases walked
      · cases walked

/-! ### Texts -/

/-- Only a codec of the machine lets halves of surrogate pairs through. -/
theorem standIns_readHeld {codecs : Text.Codecs} {others : List Char} {encoding : String}
    {held : Text.Held} (known : (Text.Encoding.ofName? encoding).isSome = true)
    (read : tree.readHeld codecs others base path encoding = .ok held) : held.standIns = [] := by
  obtain ⟨named, same⟩ := Option.isSome_iff_exists.mp known
  unfold readHeld Text.decodeNamed at read
  rw [same] at read
  dsimp only at read
  split at read
  · cases read
  · rename_i bytes _
    cases decoded : named.decode bytes with
    | error error =>
        rw [decoded] at read
        cases read
    | ok text =>
        rw [decoded] at read
        cases read
        rfl

/-! ### Files -/

theorem writable_eq_ok_iff :
    tree.writable base path = .ok place ↔
      tree.locate base path = .ok place ∧ tree.entry? place ≠ some .directory := by
  unfold writable
  cases tree.locate base path with
  | error error => exact iff_of_false (fun opened => nomatch opened) fun both => nomatch both.1
  | ok found =>
      dsimp only
      split
      · rename_i directory
        refine iff_of_false (fun opened => nomatch opened) ?_
        rintro ⟨⟨⟩, noDirectory⟩
        exact noDirectory directory
      · rename_i noDirectory
        constructor
        · rintro ⟨⟩
          exact ⟨rfl, noDirectory⟩
        · exact fun both => both.1

theorem ne_nil_of_writable (opened : tree.writable base path = .ok place) : place ≠ [] := by
  rintro rfl
  exact (writable_eq_ok_iff.mp opened).2 rfl

theorem write_eq_ok_iff :
    tree.write base path content = .ok later ↔
      ∃ place, tree.writable base path = .ok place ∧ tree.put place (.file content) = later := by
  unfold write
  cases tree.writable base path with
  | error error =>
      refine iff_of_false (fun written => nomatch written) ?_
      rintro ⟨place, opened, -⟩
      cases opened
  | ok place => simp only [Except.ok.injEq, exists_eq_left']

theorem read_eq_ok_iff :
    tree.read base path = .ok content ↔
      ∃ place, tree.locate base path = .ok place ∧ tree.entry? place = some (.file content) := by
  unfold read
  cases tree.locate base path with
  | error error =>
      refine iff_of_false (fun held => nomatch held) ?_
      rintro ⟨place, located, -⟩
      cases located
  | ok place =>
      simp only [Except.ok.injEq, exists_eq_left']
      split
      · rename_i held here
        rw [here, Except.ok.injEq, Option.some.injEq, Entry.file.injEq]
      · rename_i here
        rw [here]
        exact iff_of_false (fun held => nomatch held) fun found => nomatch found
      · rename_i nothing
        rw [nothing]
        exact iff_of_false (fun held => nomatch held) fun found => nomatch found

theorem read_put (opened : tree.writable base path = .ok place) (content : List UInt8) :
    (tree.put place (.file content)).read base path = .ok content := by
  obtain ⟨located, noDirectory⟩ := writable_eq_ok_iff.mp opened
  exact read_eq_ok_iff.mpr ⟨place, walk_put noDirectory located,
    entry?_put_self (ne_nil_of_writable opened)⟩

theorem read_of_write (written : tree.write base path content = .ok later) :
    later.read base path = .ok content := by
  obtain ⟨place, opened, rfl⟩ := write_eq_ok_iff.mp written
  exact read_put opened content

theorem exists_write (held : tree.read base path = .ok content) (written : List UInt8) :
    ∃ later, tree.write base path written = .ok later := by
  obtain ⟨place, located, here⟩ := read_eq_ok_iff.mp held
  refine ⟨_, write_eq_ok_iff.mpr ⟨place, writable_eq_ok_iff.mpr ⟨located, ?_⟩, rfl⟩⟩
  rw [here]
  exact fun directory => nomatch directory

end CommentOutline.FileTree.Tree
