import Restyle.Cli.FileSystem

/-!
# Writing a file in a file system

A path that can be opened for writing leads to a place where a file is or can be made
(`target_eq_file_iff`).  Putting a file there keeps every directory and every link, so a path that leads
somewhere still leads there (`place_put`).  What was written is read back, and nothing else is another
(`replaces_put`).
-/

namespace Restyle.Cli

theorem bind_eq_ok_iff {α β : Type} {x : Except FileError α} {f : α → Except FileError β} {b : β} :
    (x >>= f) = .ok b ↔ ∃ a, x = .ok a ∧ f a = .ok b := by
  cases x with
  | error e =>
    refine iff_of_false nofun ?_
    rintro ⟨a, h, -⟩
    cases h
  | ok a =>
    constructor
    · intro h
      exact ⟨a, rfl, h⟩
    · rintro ⟨a', h, hf⟩
      obtain rfl := Except.ok.inj h
      exact hf

/-- A text is read from its own bytes. -/
theorem textOf_toUTF8 (text : String) : textOf text.toUTF8 = .ok text := by
  unfold textOf String.fromUTF8?
  rw [String.toUTF8_eq_toByteArray, dif_pos text.isValidUTF8]
  rfl

namespace FileSystem

/-- Whether a file stands at a place or nothing does. -/
def TakesFile (fs : FileSystem) (place : Place) : Prop :=
  ∀ node ∈ fs.node? place, ∃ content, node = .file content

theorem takesFile_of_node? {fs : FileSystem} {place : Place} {content : ByteArray}
    (h : fs.node? place = some (.file content)) : fs.TakesFile place :=
  fun _ hnode => ⟨content, Option.some.inj (hnode.symm.trans h)⟩

section

variable {fs : FileSystem} {place : Place} (h : fs.TakesFile place) (content : ByteArray)

include h

/-- The root takes no file. -/
theorem TakesFile.isEmpty_eq_false : place.isEmpty = false := by
  cases hempty : place.isEmpty with
  | false => rfl
  | true =>
    obtain ⟨content, hnode⟩ := h .directory (by rw [node?, if_pos hempty]; rfl)
    cases hnode

theorem node?_put_self : (fs.put place content).node? place = some (.file content) := by
  rw [node?, h.isEmpty_eq_false, if_neg Bool.false_ne_true]
  exact Entries.get?_insert_self _ _ _

/-- A place takes a file and holds the content now, or it is as it was. -/
theorem node?_put (other : Place) :
    fs.TakesFile other ∧ (fs.put place content).node? other = some (.file content) ∨
      (fs.put place content).node? other = fs.node? other := by
  by_cases hother : other.isEmpty = true
  · exact .inr (by rw [node?, node?, if_pos hother, if_pos hother])
  · rw [TakesFile, node?, node?, if_neg hother, if_neg hother]
    by_cases hkey : join other = join place
    · have hroot := h.isEmpty_eq_false
      rw [TakesFile, node?, hroot, if_neg Bool.false_ne_true] at h
      rw [hkey]
      exact .inl ⟨h, Entries.get?_insert_self _ _ _⟩
    · exact .inr (Entries.get?_insert_of_ne _ _ hkey)

/-- Where there is a directory there was one. -/
theorem isDirectory_put (other : Place) :
    (fs.put place content).isDirectory other = fs.isDirectory other := by
  unfold isDirectory
  rcases node?_put h content other with ⟨htakes, hput⟩ | hput
  · rw [hput]
    cases hnode : fs.node? other with
    | none => rfl
    | some node =>
      obtain ⟨old, rfl⟩ := htakes node hnode
      rfl
  · rw [hput]

/-- Where there is a link there was the same. -/
theorem link?_put (other : Place) : (fs.put place content).link? other = fs.link? other := by
  unfold link?
  rcases node?_put h content other with ⟨htakes, hput⟩ | hput
  · rw [hput]
    cases hnode : fs.node? other with
    | none => rfl
    | some node =>
      obtain ⟨old, rfl⟩ := htakes node hnode
      rfl
  · rw [hput]

theorem step_put {here next : Place} {name : String} (hstep : fs.step here name = .ok next) :
    (fs.put place content).step here name = .ok next := by
  unfold step at hstep ⊢
  rw [isDirectory_put h]
  cases hhere : fs.isDirectory here with
  | false =>
    rw [hhere] at hstep
    cases hstep
  | true =>
    rw [hhere] at hstep
    exact hstep

theorem walk_put {behind behind' : Place → List String → Except FileError Place}
    (hbehind : ∀ {here names last}, behind here names = .ok last → behind' here names = .ok last)
    {here last : Place} {names : List String} (hwalk : fs.walk behind here names = .ok last) :
    (fs.put place content).walk behind' here names = .ok last := by
  induction names generalizing here with
  | nil => exact hwalk
  | cons name names ih =>
    rw [walk, bind_eq_ok_iff] at hwalk ⊢
    obtain ⟨next, hstep, hnext⟩ := hwalk
    refine ⟨next, step_put h content hstep, ?_⟩
    rw [link?_put h]
    cases hlink : fs.link? next with
    | none =>
      rw [hlink] at hnext
      exact ih hnext
    | some path =>
      rw [hlink] at hnext
      dsimp only at hnext ⊢
      rw [bind_eq_ok_iff] at hnext ⊢
      obtain ⟨way, hway, hnext⟩ := hnext
      exact ⟨way, hway, hbehind hnext⟩

theorem follow_put {links : Nat} {here last : Place} {names : List String}
    (hfollow : fs.follow links here names = .ok last) :
    (fs.put place content).follow links here names = .ok last := by
  induction links generalizing here names last with
  | zero => exact walk_put h content (fun herror => by cases herror) hfollow
  | succ links ih => exact walk_put h content ih hfollow

/-- A way that leads somewhere leads there when a file has been written. -/
theorem place_put {names : List String} {last : Place} (hplace : fs.place names = .ok last) :
    (fs.put place content).place names = .ok last :=
  follow_put h content hplace

end

variable {fs after : FileSystem} {path : String} {place : Place} {content : ByteArray}

/-- A name leads to what stands under it where paths start, if that is no link. -/
theorem place_singleton {name : String} (hhere : fs.isDirectory fs.here = true)
    (hname : isDirectoryName name = false) (hlength : name.utf8ByteSize ≤ longestName)
    (hlink : fs.link? (fs.here ++ [name]) = none) : fs.place [name] = .ok (fs.here ++ [name]) := by
  simp only [isDirectoryName, Bool.or_eq_false_iff, beq_eq_false_iff_ne] at hname
  obtain ⟨⟨hempty, hdot⟩, hup⟩ := hname
  have hstep : fs.step fs.here name = .ok (fs.here ++ [name]) := by
    simp [step, hhere, hempty, hdot, hup, Nat.not_lt.2 hlength]
  have hwalk (behindLink : Place → List String → Except FileError Place) :
      fs.walk behindLink fs.here [name] = .ok (fs.here ++ [name]) := by
    rw [walk, hstep]
    simp [bind, Except.bind, hlink, walk]
  rw [FileSystem.place, if_neg (by simpa using hempty)]
  exact hwalk _

/-- A path can be read if it leads to a file or a device. -/
theorem read_eq_ok_iff : fs.read path = .ok content ↔ ∃ names place, namesOf path = .ok names ∧
    fs.place names = .ok place ∧ (fs.node? place = some (.file content) ∨
      ∃ device, fs.node? place = some (.device device) ∧ device.content = content) := by
  unfold read
  simp only [bind_eq_ok_iff]
  constructor
  · rintro ⟨names, hnames, place, hplace, h⟩
    refine ⟨names, place, hnames, hplace, ?_⟩
    cases hnode : fs.node? place with
    | none =>
      rw [hnode] at h
      cases h
    | some node =>
      rw [hnode] at h
      cases node with
      | file found => exact .inl (by rw [Except.ok.inj h])
      | device device => exact .inr ⟨device, rfl, Except.ok.inj h⟩
      | directory | link path => cases h
  · rintro ⟨names, place, hnames, hplace, hnode | ⟨device, hnode, rfl⟩⟩ <;>
      exact ⟨names, hnames, place, hplace, by rw [hnode]; rfl⟩

/-- A path is opened as a file if its last name may be that of a file and it leads to a place that takes
one. -/
theorem target_eq_file_iff : fs.target path = .ok (.file place) ↔ ∃ names, namesOf path = .ok names ∧
    isDirectoryName (names.getLastD "") = false ∧ fs.place names = .ok place ∧ fs.TakesFile place := by
  unfold target
  simp only [bind_eq_ok_iff]
  constructor
  · rintro ⟨names, hnames, h⟩
    cases hname : isDirectoryName (names.getLastD "") with
    | true =>
      rw [if_pos hname, bind_eq_ok_iff] at h
      obtain ⟨way, -, h⟩ := h
      cases h
    | false =>
      rw [hname, if_neg Bool.false_ne_true, bind_eq_ok_iff] at h
      obtain ⟨last, hlast, h⟩ := h
      have htakes : fs.TakesFile last ∧ last = place := by
        unfold TakesFile
        cases hnode : fs.node? last with
        | none =>
          rw [hnode] at h
          cases h
          exact ⟨nofun, rfl⟩
        | some node =>
          rw [hnode] at h
          cases node with
          | file old =>
            cases h
            refine ⟨?_, rfl⟩
            rintro node ⟨⟩
            exact ⟨old, rfl⟩
          | directory | device device | link path => cases h
      obtain ⟨htakes, rfl⟩ := htakes
      exact ⟨names, hnames, hname, hlast, htakes⟩
  · rintro ⟨names, hnames, hname, hplace, htakes⟩
    refine ⟨names, hnames, ?_⟩
    rw [hname, if_neg Bool.false_ne_true, bind_eq_ok_iff]
    refine ⟨place, hplace, ?_⟩
    cases hnode : fs.node? place with
    | none => rfl
    | some node =>
      obtain ⟨old, rfl⟩ := htakes node hnode
      rfl

/-- The file at a path holds a content, and all else is as before. -/
structure Replaces (fs : FileSystem) (path : String) (content : ByteArray) (after : FileSystem) :
    Prop where
  /-- What the path is read as afterwards is the content. -/
  read_eq : after.read path = .ok content
  /-- There is one place to which the path leads, and it alone has changed. -/
  exists_place : ∃ names place, namesOf path = .ok names ∧ fs.place names = .ok place ∧
    after.node? place = some (.file content) ∧
    ∀ key, key ≠ join place → after.nodes.get? key = fs.nodes.get? key
  here_eq : after.here = fs.here

/-- Writing to a file gives it its content and changes nothing else. -/
theorem replaces_put (h : fs.target path = .ok (.file place)) (content : ByteArray) :
    fs.Replaces path content (fs.put place content) := by
  obtain ⟨names, hnames, -, hplace, htakes⟩ := target_eq_file_iff.1 h
  have hnode := node?_put_self htakes content
  refine ⟨read_eq_ok_iff.2 ⟨names, place, hnames, place_put htakes content hplace, .inl hnode⟩,
    ⟨names, place, hnames, hplace, hnode, ?_⟩, rfl⟩
  intro key hne
  exact Entries.get?_insert_of_ne _ _ hne

end FileSystem

end Restyle.Cli
