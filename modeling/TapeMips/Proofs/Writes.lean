import TapeMips.Files.Tree

/-!
# What opening, writing and unlinking do to a tree

A path is followed through directories, and none of the three makes a directory or
removes one. So a path leads to the same place before and after, whatever becomes of
the file, and everything that is said about the path the run wrote to can be said in
either tree.

All three touch one place at most, and the place has a name that the path ends with:
the last component is never resolved. What has been opened to be written is a file or
the device, and stays one; so it can always be unlinked.
-/

namespace TapeMips.Files

namespace Tree

theorem node?_nil (t : Tree) : t.node? [] = some .directory := rfl

theorem node?_of_ne_nil (t : Tree) {place : List String} (h : place ≠ []) :
    t.node? place = t.nodes.lookup place := by
  simp [node?, h]

theorem node?_insert_self (t : Tree) {place : List String} (h : place ≠ [])
    (node : Node) : (t.insert place node).node? place = some node := by
  rw [node?_of_ne_nil _ h, insert, Entries.lookup_bind_self]

theorem node?_insert_of_ne (t : Tree) {place other : List String} (h : other ≠ place)
    (node : Node) : (t.insert place node).node? other = t.node? other := by
  by_cases hnil : other = []
  · rw [hnil, node?_nil, node?_nil]
  · rw [node?_of_ne_nil _ hnil, node?_of_ne_nil _ hnil, insert]
    exact Entries.lookup_bind_ne t.nodes h node

theorem node?_erase_self (t : Tree) {place : List String} (h : place ≠ []) :
    (t.erase place).node? place = none := by
  rw [node?_of_ne_nil _ h, erase]
  exact Entries.lookup_without_self t.nodes place

theorem node?_erase_of_ne (t : Tree) {place other : List String} (h : other ≠ place) :
    (t.erase place).node? other = t.node? other := by
  by_cases hnil : other = []
  · rw [hnil, node?_nil, node?_nil]
  · rw [node?_of_ne_nil _ hnil, node?_of_ne_nil _ hnil, erase]
    exact Entries.lookup_without_ne t.nodes h

/-- The directories of two trees are the same. -/
def SameDirectories (t t' : Tree) : Prop :=
  ∀ place, t'.node? place = some .directory ↔ t.node? place = some .directory

/-- Everything is as it was, except perhaps at one place. -/
def OnlyAt (t t' : Tree) (place : List String) : Prop :=
  ∀ other, other ≠ place → t'.node? other = t.node? other

theorem OnlyAt.refl (t : Tree) (place : List String) : OnlyAt t t place :=
  fun _ _ => rfl

theorem OnlyAt.trans {t t' t'' : Tree} {place : List String} (h : OnlyAt t t' place)
    (h' : OnlyAt t' t'' place) : OnlyAt t t'' place :=
  fun other hother => (h' other hother).trans (h other hother)

theorem onlyAt_insert (t : Tree) (place : List String) (node : Node) :
    OnlyAt t (t.insert place node) place :=
  fun _ hother => node?_insert_of_ne t hother node

theorem onlyAt_erase (t : Tree) (place : List String) :
    OnlyAt t (t.erase place) place :=
  fun _ hother => node?_erase_of_ne t hother

theorem OnlyAt.sameDirectories {t t' : Tree} {place : List String}
    (h : OnlyAt t t' place) (ht : t.node? place ≠ some .directory)
    (ht' : t'.node? place ≠ some .directory) : SameDirectories t t' := by
  intro other
  by_cases hother : other = place
  · rw [hother]
    exact ⟨fun h' => absurd h' ht', fun h' => absurd h' ht⟩
  · rw [h other hother]

theorem ne_nil_of_not_directory {t : Tree} {place : List String}
    (h : t.node? place ≠ some .directory) : place ≠ [] :=
  fun heq => h (by rw [heq, node?_nil])

theorem walkFrom_directory {t : Tree} {components : List String}
    (h : t.node? components = some .directory) (name : String) (rest : List String) :
    t.walkFrom (.within components) (name :: rest) =
      if name = ".." then t.walkFrom (Place.parent (.within components)) rest
      else if maxNameBytes < name.utf8ByteSize then .nameTooLong
      else t.walkFrom (.within (components ++ [name])) rest := by
  rw [walkFrom.eq_def]
  simp only [at?, h]

theorem walkFrom_other {t : Tree} {components : List String}
    (h : t.node? components ≠ some .directory) (name : String) (rest : List String) :
    t.walkFrom (.within components) (name :: rest) = .absent := by
  rw [walkFrom.eq_def]
  simp only [at?]

theorem walkFrom_outside (t : Tree) (name : String) (rest : List String) :
    t.walkFrom .outside (name :: rest) =
      if name = ".." then t.walkFrom .outside rest
      else if maxNameBytes < name.utf8ByteSize then .nameTooLong
      else .absent := by
  rw [walkFrom.eq_def]
  rfl

theorem SameDirectories.walkFrom {t t' : Tree} (h : SameDirectories t t')
    (here : Place) (names : List String) :
    t'.walkFrom here names = t.walkFrom here names := by
  induction names generalizing here with
  | nil => rw [Tree.walkFrom.eq_def, Tree.walkFrom.eq_def]
  | cons name rest ih =>
      cases here with
      | outside => rw [walkFrom_outside, walkFrom_outside, ih]
      | within components =>
          by_cases hdir : t.node? components = some .directory
          · rw [walkFrom_directory hdir,
              walkFrom_directory ((h components).mpr hdir), ih, ih]
          · rw [walkFrom_other hdir, walkFrom_other fun hd =>
              hdir ((h components).mp hd)]

theorem SameDirectories.walk {t t' : Tree} (h : SameDirectories t t') (p : Path) :
    t'.walk p = t.walk p := by
  simp only [Tree.walk, h.walkFrom]

/-- A path whose last component is a name leads to a place of that name. -/
theorem walkFrom_name {t : Tree} {names : List String} {name : String}
    (hname : name ≠ "..") {here place : Place}
    (h : t.walkFrom here (names ++ [name]) = .found place) :
    ∃ front, place = .within (front ++ [name]) := by
  induction names generalizing here with
  | nil =>
      rw [List.nil_append] at h
      cases here with
      | outside =>
          rw [walkFrom_outside, if_neg hname] at h
          split at h <;> cases h
      | within components =>
          by_cases hdir : t.node? components = some .directory
          · rw [walkFrom_directory hdir, if_neg hname] at h
            split at h
            · cases h
            · rw [walkFrom, Walk.found.injEq] at h
              exact ⟨components, h.symm⟩
          · rw [walkFrom_other hdir] at h
            cases h
  | cons first rest ih =>
      rw [List.cons_append] at h
      cases here with
      | outside =>
          rw [walkFrom_outside] at h
          split at h
          · exact ih h
          · split at h <;> cases h
      | within components =>
          by_cases hdir : t.node? components = some .directory
          · rw [walkFrom_directory hdir] at h
            split at h
            · exact ih h
            · split at h
              · cases h
              · exact ih h
          · rw [walkFrom_other hdir] at h
            cases h

theorem find_error {t : Tree} {p : Path} {e : SystemError} (h : t.find p = .error e) :
    ∃ path, e = .nameTooLong path := by
  rw [find] at h
  split at h
  · cases h
  · cases h
  · cases h
    exact ⟨_, rfl⟩

/-- Everything is as it was, except perhaps at the place to which a path leads. -/
def SameBut (t t' : Tree) (p : Path) : Prop :=
  ∀ place, t.walk p ≠ .found (.within place) → t'.node? place = t.node? place

theorem SameBut.refl (t : Tree) (p : Path) : SameBut t t p := fun _ _ => rfl

theorem OnlyAt.sameBut {t t' : Tree} {p : Path} {place : List String}
    (h : OnlyAt t t' place) (hwalk : t.walk p = .found (.within place)) :
    SameBut t t' p := by
  intro other hother
  refine h other fun heq => hother ?_
  rw [hwalk, heq]

/-- A path to which a file can be written: it leads to a file, or to where one may
be made. -/
def Writable (t : Tree) (p : Path) : Prop :=
  ∃ place, t.walk p = .found (.within place) ∧
    t.node? place ≠ some .directory ∧ t.node? place ≠ some .fullDevice

/-- A file or a link stands at a place. -/
def HoldsFile (t : Tree) (place : List String) : Prop :=
  ∃ node, t.node? place = some node ∧ node ≠ .directory

theorem HoldsFile.not_directory {t : Tree} {place : List String}
    (h : t.HoldsFile place) : t.node? place ≠ some .directory := by
  obtain ⟨node, hnode, hne⟩ := h
  rw [hnode]
  exact fun heq => hne (Option.some.inj heq)

/-- A place that has been opened: an empty file, or the device. -/
structure Opened (t : Tree) (p : Path) (place : List String) (t' : Tree) : Prop where
  walk : t.walk p = .found (.within place)
  not_directory : t.node? place ≠ some .directory
  onlyAt : OnlyAt t t' place
  empty_or_device : t.Writable p ∧ t'.node? place = some (.file []) ∨
    ¬ t.Writable p ∧ t'.node? place = some .fullDevice

theorem Opened.holdsFile {t t' : Tree} {p : Path} {place : List String}
    (h : Opened t p place t') : t'.HoldsFile place := by
  rcases h.empty_or_device with ⟨-, hnode⟩ | ⟨-, hnode⟩
  · exact ⟨_, hnode, by simp⟩
  · exact ⟨_, hnode, by simp⟩

theorem not_writable_of_walk {t : Tree} {p : Path}
    (h : ∀ place, t.walk p ≠ .found (.within place)) : ¬ t.Writable p :=
  fun ⟨place, hwalk, _⟩ => h place hwalk

theorem not_writable_of_directory {t : Tree} {p : Path} {place : List String}
    (hwalk : t.walk p = .found (.within place)) (h : t.node? place = some .directory) :
    ¬ t.Writable p := by
  rintro ⟨other, hother, hdirectory, -⟩
  rw [hwalk, Walk.found.injEq, Place.within.injEq] at hother
  exact hdirectory (hother ▸ h)

theorem not_writable_of_device {t : Tree} {p : Path} {place : List String}
    (hwalk : t.walk p = .found (.within place))
    (h : t.node? place = some .fullDevice) : ¬ t.Writable p := by
  rintro ⟨other, hother, -, hdevice⟩
  rw [hwalk, Walk.found.injEq, Place.within.injEq] at hother
  exact hdevice (hother ▸ h)

theorem openToWrite_ok {t t' : Tree} {p : Path} {place : List String}
    (h : t.openToWrite p = .ok (place, t')) : Opened t p place t' := by
  rw [openToWrite] at h
  split at h
  · cases h
  · cases h
  · cases h
  · next there hwalk =>
      split at h
      · cases h
      · next hdevice =>
          cases h
          exact ⟨hwalk, by simp [hdevice], OnlyAt.refl t place,
            Or.inr ⟨not_writable_of_device hwalk hdevice, hdevice⟩⟩
      · next hdirectory hdevice =>
          cases h
          have hnil := ne_nil_of_not_directory hdirectory
          exact ⟨hwalk, hdirectory, onlyAt_insert t place _,
            Or.inl ⟨⟨place, hwalk, hdirectory, hdevice⟩, node?_insert_self t hnil _⟩⟩

/-- What cannot be opened to be written cannot be unlinked either: nothing is
there, or there is a directory, or the path cannot be followed. -/
theorem openToWrite_error {t : Tree} {p : Path} {e : SystemError}
    (h : t.openToWrite p = .error e) :
    ¬ t.Writable p ∧
      ((t.unlink p = .error (.noSuchFile p.text) ∧ t.find p = .ok none) ∨
        ((t.unlink p = .error (.isDirectory p.text) ∧
          t.find p = .ok (some .directory)) ∨
          (t.unlink p = .error (.nameTooLong p.text) ∧ t.walk p = .nameTooLong))) := by
  rw [openToWrite] at h
  split at h
  · next hwalk =>
      exact ⟨not_writable_of_walk (by simp [hwalk]),
        Or.inr (Or.inr ⟨by rw [unlink, hwalk], hwalk⟩)⟩
  · next hwalk =>
      exact ⟨not_writable_of_walk (by simp [hwalk]),
        Or.inl ⟨by rw [unlink, hwalk], by rw [find, hwalk]⟩⟩
  · next hwalk =>
      exact ⟨not_writable_of_walk (by simp [hwalk]),
        Or.inr (Or.inl ⟨by rw [unlink, hwalk], by rw [find, hwalk]; rfl⟩)⟩
  · next place hwalk =>
      split at h
      · next hdirectory =>
          refine ⟨not_writable_of_directory hwalk hdirectory, Or.inr (Or.inl ⟨?_, ?_⟩)⟩
          · simp only [unlink, hwalk, hdirectory]
          · rw [find, hwalk]
            exact congrArg Except.ok hdirectory
      · cases h
      · cases h

/-- A file is taken away from where it stands, and nothing else is. -/
theorem unlink_of_holdsFile {t : Tree} {p : Path} {place : List String}
    (hwalk : t.walk p = .found (.within place)) (h : t.HoldsFile place) :
    ∃ t', t.unlink p = .ok t' ∧ t'.find p = .ok none ∧ OnlyAt t t' place := by
  have hdirectory := h.not_directory
  obtain ⟨node, hnode, hne⟩ := h
  have herased := node?_erase_self t (ne_nil_of_not_directory hdirectory)
  have hsame : SameDirectories t (t.erase place) :=
    (onlyAt_erase t place).sameDirectories hdirectory (by simp [herased])
  refine ⟨t.erase place, ?_, ?_, onlyAt_erase t place⟩
  · simp only [unlink, hwalk, hnode]
  · rw [find, hsame.walk, hwalk]
    exact congrArg Except.ok herased

end Tree

end TapeMips.Files
