import Mathlib.Data.List.Induction
import MiniA64.Host.FileTree

/-!
# Paths in a tree of files

Putting an entry into a tree, or removing one, changes what is at its path and nothing else. A path
that leads to a directory can be followed further from there, and it still leads there after a
change below it. Once a directory has been made, its path leads to it.
-/

namespace MiniA64

/-! ## Lists of entries with a key -/

section

variable {α β : Type} [BEq α] [LawfulBEq α] [DecidableEq α] (entries : List (α × β)) (key : α)

theorem lookup_cons (entry : α × β) :
    (entry :: entries).lookup key = if key = entry.1 then some entry.2 else entries.lookup key := by
  have unfolded : (entry :: entries).lookup key =
      bif key == entry.1 then some entry.2 else entries.lookup key := rfl
  rw [unfolded]
  simp only [cond_eq_ite, beq_iff_eq]

theorem isSome_lookup : (entries.lookup key).isSome = entries.any fun old ↦ old.1 = key := by
  induction entries with
  | nil => rfl
  | cons entry rest ih =>
    by_cases same : key = entry.1
    · simp [lookup_cons, same]
    · simp [lookup_cons, same, Ne.symm same, ih]

theorem lookup_replaced (value : β) (other : α) :
    (entries.map fun old ↦ if old.1 = key then (key, value) else old).lookup other =
      if other = key then (entries.lookup key).map fun _ ↦ value else entries.lookup other := by
  induction entries with
  | nil => simp
  | cons entry rest ih =>
    rw [List.map_cons, lookup_cons, lookup_cons, lookup_cons, ih]
    by_cases same : entry.1 = key
    · by_cases found : other = key
      · simp [same, found]
      · simp [same, found]
    · by_cases found : other = key
      · simp [same, Ne.symm same, found]
      · simp [same, found]

/-- Puts a value in the place of the one with the same key, or at the end. -/
theorem lookup_put (value : β) (other : α) :
    (if entries.any fun old ↦ old.1 = key then
        entries.map fun old ↦ if old.1 = key then (key, value) else old
      else entries ++ [(key, value)]).lookup other =
      if other = key then some value else entries.lookup other := by
  rw [← isSome_lookup]
  split
  · rename_i present
    obtain ⟨old, found⟩ := Option.isSome_iff_exists.mp present
    rw [lookup_replaced, found, Option.map_some]
  · rename_i absent
    have nothing : entries.lookup key = none := Option.not_isSome_iff_eq_none.mp absent
    rw [List.lookup_append]
    by_cases same : other = key
    · simp [same, nothing]
    · simp [lookup_cons, same]

theorem lookup_removed (other : α) :
    (entries.filter fun old ↦ old.1 ≠ key).lookup other =
      if other = key then none else entries.lookup other := by
  induction entries with
  | nil => simp
  | cons entry rest ih =>
    by_cases same : entry.1 = key
    · rw [List.filter_cons_of_neg (by simp [same]), ih, lookup_cons, same]
      split <;> rfl
    · rw [List.filter_cons_of_pos (by simpa using same), lookup_cons, lookup_cons, ih]
      by_cases found : other = entry.1
      · simp [found, same]
      · simp [found]

end

namespace FileTree

variable {tree : FileTree} {directory path place : List String} {name : String}

/-! ## Entries -/

theorem entry?_put (inside : path ≠ []) (entry : TreeEntry) (other : List String) :
    entry? (tree.put path entry) other =
      if other = path then some entry else tree.entry? other := by
  have put : (tree.put path entry).entries =
      if tree.entries.any fun old ↦ old.1 = path then
        tree.entries.map fun old ↦ if old.1 = path then (path, entry) else old
      else tree.entries ++ [(path, entry)] := by
    unfold FileTree.put
    split <;> rfl
  unfold entry?
  rw [put, lookup_put]
  cases other with
  | nil => simp [Ne.symm inside]
  | cons first rest => rfl

theorem entry?_remove (inside : path ≠ []) (other : List String) :
    entry? (tree.remove path) other = if other = path then none else tree.entry? other := by
  unfold entry? remove
  rw [lookup_removed]
  cases other with
  | nil => simp [Ne.symm inside]
  | cons first rest => rfl

/-! ## Following paths -/

/-- A path beyond a directory is followed from the directory. -/
theorem follow_append (leads : tree.follow directory path = .ok (place, some .directory))
    (rest : List String) : tree.follow directory (path ++ rest) = tree.follow place rest := by
  induction path generalizing directory with
  | nil =>
    cases leads
    rfl
  | cons name path ih =>
    rw [follow] at leads
    rw [List.cons_append, follow]
    split at leads
    · rename_i up
      rw [if_pos up]
      exact ih leads
    rename_i down
    rw [if_neg down]
    split at leads
    · cases leads
    rename_i fits
    rw [if_neg fits]
    dsimp only at leads ⊢
    cases entry : tree.entry? (directory ++ [name]) with
    | none =>
      rw [entry] at leads
      dsimp only at leads
      split at leads <;> cases leads
    | some found =>
      rw [entry] at leads
      cases found with
      | directory => exact ih leads
      | file data =>
        dsimp only at leads
        split at leads <;> cases leads

/-- A name in a directory is looked up there. -/
theorem follow_name (down : name ≠ "..") (fits : name.utf8ByteSize ≤ nameLimit) :
    tree.follow directory [name] =
      .ok (directory ++ [name], tree.entry? (directory ++ [name])) := by
  rw [follow, if_neg down, if_neg (Nat.not_lt.mpr fits)]
  dsimp only
  split
  · rename_i entry
    rw [follow, entry]
  · rename_i data entry
    rw [entry]
    rfl
  · rename_i entry
    rw [entry]
    rfl

/-- Following a path looks at what is at its beginnings only. -/
theorem follow_congr {other : FileTree} (down : ".." ∉ path)
    (same : ∀ start, start <+: path →
      tree.entry? (directory ++ start) = other.entry? (directory ++ start)) :
    tree.follow directory path = other.follow directory path := by
  induction path generalizing directory with
  | nil => rfl
  | cons name path ih =>
    have here : tree.entry? (directory ++ [name]) = other.entry? (directory ++ [name]) :=
      same [name] ⟨path, rfl⟩
    have further :
        tree.follow (directory ++ [name]) path = other.follow (directory ++ [name]) path := by
      refine ih (fun met ↦ down (List.mem_cons_of_mem _ met)) fun start begins ↦ ?_
      rw [List.append_assoc]
      exact same (name :: start) ((List.prefix_cons_inj name).mpr begins)
    have below : name ≠ ".." := fun up ↦ down (up ▸ List.mem_cons_self)
    rw [follow, follow, if_neg below, if_neg below]
    dsimp only
    rw [here, further]

theorem place_of_follow {entry : Option TreeEntry} (down : ".." ∉ path)
    (leads : tree.follow directory path = .ok (place, entry)) : place = directory ++ path := by
  induction path generalizing directory with
  | nil =>
    cases leads
    exact (List.append_nil _).symm
  | cons name path ih =>
    have below : name ≠ ".." := fun up ↦ down (up ▸ List.mem_cons_self)
    rw [follow, if_neg below] at leads
    split at leads
    · cases leads
    dsimp only at leads
    split at leads
    · rw [ih (fun met ↦ down (List.mem_cons_of_mem _ met)) leads, List.append_assoc]
      rfl
    · split at leads
      · rename_i last
        cases leads
        rw [List.isEmpty_iff.mp last]
      · cases leads
    · split at leads
      · rename_i last
        cases leads
        rw [List.isEmpty_iff.mp last]
      · cases leads

/-- What lies at a path lies in a directory, and has a name that is not too long. -/
theorem follow_above {entry : Option TreeEntry} (plain : ".." ∉ path ++ [name])
    (leads : tree.follow directory (path ++ [name]) = .ok (place, entry)) :
    tree.follow directory path = .ok (directory ++ path, some .directory) ∧
      name.utf8ByteSize ≤ nameLimit := by
  induction path generalizing directory with
  | nil =>
    have down : name ≠ ".." := fun up ↦ plain (by simp [up])
    rw [List.nil_append, follow, if_neg down] at leads
    split at leads
    · cases leads
    rename_i fits
    exact ⟨by rw [follow, List.append_nil], Nat.not_lt.mp fits⟩
  | cons first path ih =>
    have down : first ≠ ".." := fun up ↦ plain (by simp [up])
    rw [List.cons_append, follow, if_neg down] at leads
    rw [follow, if_neg down]
    split at leads
    · cases leads
    rename_i fits
    rw [if_neg fits]
    dsimp only at leads ⊢
    -- A path goes on below a directory only.
    have more : (path ++ [name]).isEmpty = false := by simp
    simp only [more, Bool.false_eq_true, if_false] at leads
    split at leads
    · rename_i found
      have above := ih (fun met ↦ plain (List.mem_cons_of_mem _ met)) leads
      rw [List.append_assoc, List.singleton_append] at above
      exact above
    · cases leads
    · cases leads

/-! ## Making directories -/

/-- A directory that is put into an existing directory is found there. -/
theorem follow_put_directory (leads : tree.follow [] path = .ok (path, some .directory))
    (plain : ".." ∉ path ++ [name]) (fits : name.utf8ByteSize ≤ nameLimit) :
    (tree.put (path ++ [name]) .directory).follow [] (path ++ [name]) =
      .ok (path ++ [name], some .directory) := by
  have inside : path ++ [name] ≠ [] := by simp
  have down : name ≠ ".." := fun up ↦ plain (by simp [up])
  have kept : (tree.put (path ++ [name]) .directory).follow [] path =
      .ok (path, some .directory) := by
    rw [← leads]
    refine follow_congr (fun met ↦ plain (List.mem_append_left _ met)) fun start begins ↦ ?_
    have shorter : start ≠ path ++ [name] := by
      rintro rfl
      have length := begins.length_le
      simp only [List.length_append, List.length_singleton] at length
      omega
    rw [List.nil_append, entry?_put inside, if_neg shorter]
  rw [follow_append kept, follow_name down fits, entry?_put inside, if_pos rfl]

theorem follow_of_locate {entry : Option TreeEntry}
    (located : tree.locate directory path = .ok (place, entry)) :
    tree.follow directory path = .ok (place, entry) := by
  unfold locate at located
  split at located
  · cases located
  · exact located

/-- A directory that has been made is where its path leads. -/
theorem follow_makeDirectory {made : FileTree} (plain : ".." ∉ path)
    (makes : tree.makeDirectory path = .ok made) :
    made.follow [] path = .ok (path, some .directory) := by
  induction path using List.reverseRecOn generalizing made with
  | nil => rfl
  | append_singleton path name ih =>
    rw [makeDirectory] at makes
    split at makes
    · rename_i place located
      cases makes
      have leads := follow_of_locate located
      rw [leads, place_of_follow plain leads, List.nil_append]
    · cases makes
    · rename_i place located
      cases makes
      obtain ⟨above, fits⟩ := follow_above plain (follow_of_locate located)
      exact follow_put_directory above plain fits
    · rw [if_neg (by simp), List.dropLast_concat] at makes
      cases parent : tree.makeDirectory path with
      | error error =>
        rw [parent] at makes
        cases makes
      | ok parentMade =>
        have above := ih (fun met ↦ plain (List.mem_append_left _ met)) parent
        rw [parent] at makes
        simp only [bind, Except.bind, List.getLastD_concat] at makes
        split at makes
        · cases makes
        rename_i fits
        cases makes
        exact follow_put_directory above plain (Nat.not_lt.mp fits)
    · cases makes

end FileTree

end MiniA64
