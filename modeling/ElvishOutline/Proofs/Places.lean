import ElvishOutline.FileSystem
import ElvishOutline.Proofs.JoinedPaths

/-!
# Where paths lead

A path is followed name by name. If what it leads to is no link, it makes no difference whether a
link at its end would be followed. A name in the current directory leads to what is there under this
name, and a name behind that of a directory leads to what the directory holds.
-/

namespace ElvishOutline.FileSystem

variable {fs : FileSystem}

/-- A path that leads to something else than a link leads there whether or not a link at its end is
followed. -/
theorem follow_followed_of_kept {links : Nat} {here segments place : List String}
    (h : fs.follow .kept links here segments = .ok place)
    (hplace : ∀ target, fs.node? place ≠ some (.link target)) :
    fs.follow .followed links here segments = .ok place := by
  fun_induction follow fs .kept links here segments with
  | case1 => rwa [follow]
  | case2 links here name rest hsilent ih =>
    rw [follow, if_pos hsilent]
    exact ih h
  | case3 links here rest hsilent ih =>
    rw [follow, if_neg hsilent, if_pos rfl]
    exact ih h
  | case4 links here name rest hsilent hparent next hnode hcreated => cases hcreated.2
  | case5 => cases h
  | case6 links here name rest hsilent hparent next entries hnode ih =>
    rw [follow, if_neg hsilent, if_neg hparent]
    simp only [next] at hnode
    simp only [hnode]
    exact ih h
  | case7 links here name hsilent hparent next content hnode =>
    rw [follow, if_neg hsilent, if_neg hparent]
    simp only [next] at hnode
    simp only [hnode, if_true]
    exact h
  | case8 => cases h
  | case9 links here name rest hsilent hparent next target hnode hkept =>
    -- A link at the end would be the place itself.
    obtain rfl := Except.ok.inj h
    exact absurd hnode (hplace target)
  | case10 => cases h
  | case11 here name rest hsilent hparent next target hnode hkept fewer ih =>
    rw [follow, if_neg hsilent, if_neg hparent]
    simp only [next] at hnode
    simp only [hnode, reduceCtorEq, and_false, if_false]
    exact ih h

/-- A path that leads somewhere has some text. -/
theorem toString_ne_of_place {mode : LastName} {path : Path}
    {place : List String} (h : fs.place mode path = .ok place) : path.toString ≠ "" := by
  intro hempty
  rw [FileSystem.place, if_pos hempty] at h
  cases h

/-- A path that leads to something else than a link leads there also if a last link is followed. -/
theorem place_followed_of_kept {path : Path} {place : List String}
    (h : fs.place .kept path = .ok place)
    (hplace : ∀ target, fs.node? place ≠ some (.link target)) :
    fs.place .followed path = .ok place := by
  have htext := toString_ne_of_place h
  rw [FileSystem.place, if_neg htext] at h ⊢
  exact follow_followed_of_kept h hplace

/-- A dot stands for the current directory. -/
theorem place_current (mode : LastName) : fs.place mode ⟨["."]⟩ = .ok fs.current := by
  rw [FileSystem.place, if_neg (by decide), follow, if_pos (by decide), follow]
  rfl

/-- A dot in front of a name stands for the current directory. -/
theorem place_dot (mode : LastName) (name : String) :
    fs.place mode ⟨[".", name]⟩ = fs.follow mode 40 fs.current [name] := by
  have htext : (⟨[".", name]⟩ : Path).toString ≠ "" := by
    have hjoined : (⟨[".", name]⟩ : Path).toString = "." ++ "/" ++ name := rfl
    rw [hjoined]
    simp
  have hrelative : (⟨[".", name]⟩ : Path).isAbsolute = false := rfl
  rw [FileSystem.place, if_neg htext, hrelative, follow, if_pos (by decide)]
  rfl

section CurrentDirectory

variable {name : String} (hname : Path.isSilent name = false) (hparent : name ≠ "..")
include hname hparent

/-- A file in the current directory can be read under its name. -/
theorem read_dot {content : ByteArray}
    (hnode : fs.node? (fs.current ++ [name]) = some (.file content)) :
    fs.read ⟨[".", name]⟩ = .ok content := by
  have hplace : fs.place .followed ⟨[".", name]⟩ = .ok (fs.current ++ [name]) := by
    rw [place_dot, follow, if_neg (by simp [hname]), if_neg hparent]
    simp only [hnode, if_true]
  rw [FileSystem.read, find, hplace]
  simp only [hnode]

/-- What the current directory does not hold is not found. -/
theorem contains_dot_of_missing (hnode : fs.node? (fs.current ++ [name]) = none) :
    fs.contains ⟨[".", name]⟩ = false := by
  have hplace : fs.place .followed ⟨[".", name]⟩ = .error .missing := by
    rw [place_dot, follow, if_neg (by simp [hname]), if_neg hparent]
    simp only [hnode, reduceCtorEq, and_false, if_false]
  rw [FileSystem.contains, find, hplace]
  rfl

end CurrentDirectory

/-- A path that can be read leads to something. -/
theorem contains_of_read {path : Path} {content : ByteArray} (h : fs.read path = .ok content) :
    fs.contains path = true := by
  rw [FileSystem.read] at h
  rw [FileSystem.contains]
  cases hfind : fs.find path with
  | error e =>
    rw [hfind] at h
    cases h
  | ok node => rfl

/-- A file in a directory of the current directory can be read under both names. -/
theorem read_below {directory name : String} {entries : List (String × Node)} {content : ByteArray}
    (hdirectory : Path.isSilent directory = false ∧ directory ≠ "..")
    (hname : Path.isSilent name = false ∧ name ≠ "..")
    (hentries : fs.node? (fs.current ++ [directory]) = some (.directory entries))
    (hfile : fs.node? (fs.current ++ [directory] ++ [name]) = some (.file content)) :
    fs.read ⟨[directory, name]⟩ = .ok content := by
  have hstart := Path.start_of_isSilent_eq_false hdirectory.1 [name]
  have hrelative : (⟨[directory, name]⟩ : Path).isAbsolute = false := by
    rw [Path.isAbsolute, hstart]
    rfl
  have htext : (⟨[directory, name]⟩ : Path).toString ≠ "" := by
    simp [Path.toString]
  have hplace : fs.place .followed ⟨[directory, name]⟩ = .ok (fs.current ++ [directory] ++ [name]) := by
    rw [FileSystem.place, if_neg htext, hrelative, if_neg Bool.false_ne_true, follow,
      if_neg (by simp [hdirectory.1]), if_neg hdirectory.2]
    simp only [hentries]
    rw [follow, if_neg (by simp [hname.1]), if_neg hname.2]
    simp only [hfile, if_true]
  rw [FileSystem.read, find, hplace]
  simp only [hfile]

end ElvishOutline.FileSystem
