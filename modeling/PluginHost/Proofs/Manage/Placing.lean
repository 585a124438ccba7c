import PluginHost.Manage.Install
import PluginHost.Proofs.Actions
import PluginHost.Proofs.Files.Moving

/-!
# Placing executables

Executables are copied to temporary files in the plugin directory first, and then moved to their
places.  `Holds` compares a tree that holds temporary files with the tree without them.  There are
three groups of lemmas.

* Staging.  When it fails, the tree is as it was (`stageAll_error`).  When it succeeds, the tree holds
  a temporary file for each executable (`stageAll_ok`).
* Temporary files.  A tree that holds them has grown from the tree without them (`Holds.grows`), so
  the plugin directory is where it was, and they can be discarded (`Holds.discardAll`).
* Moving.  `movesOf` are the moves up to the first that fails.  `placeAll_places` says of every run
  what is left: the entries that were moved, and no temporary file unless a link on the way to the
  plugin directory may have been replaced.
-/

namespace PluginHost.Manage

open FileTree PluginHost.Path FileAction

/-! ## Executables -/

/-- An executable as it is installed: its name and its bytes. -/
structure Executable where
  name : Bytes
  data : Bytes
  deriving DecidableEq, Repr

/-- The executable is the file that the path leads to, under the name that the path ends with. -/
structure Executable.IsAt (t : FileTree) (p : Path) (e : Executable) : Prop where
  name : Path.fileName p = some e.name
  data : t.read p = .ok e.data

/-- The entries that executables make in a directory. -/
def entriesIn (d : Location) (es : List Executable) : List (Location × FileNode) :=
  es.map fun e => (d ++ [e.name], .file programMode e.data)

/-- An executable in a temporary file, and the name of that file. -/
structure Held where
  temporary : Bytes
  executable : Executable
  deriving DecidableEq, Repr

/-- Where the temporary file stands. -/
def Held.location (d : Location) (h : Held) : Location := d ++ [h.temporary]

/-- What the temporary file holds. -/
def Held.node (h : Held) : FileNode := .file programMode h.executable.data

/-- The executables on their way from their temporary files to their places. -/
def stagedFor (directory : Path) (held : List Held) : List Staged :=
  held.map fun h => ⟨Path.join directory h.temporary, Path.join directory h.executable.name⟩

/-! ## Trees that hold temporary files -/

/-- The first tree holds the temporary files, the second one is the same without them. -/
inductive Holds (d : Location) : List Held → FileTree → FileTree → Prop where
  | nil {t : FileTree} : Holds d [] t t
  | cons {h : Held} {rest : List Held} {t u : FileTree} (hfile : t.get? (h.location d) = some h.node)
      (hrest : Holds d rest (t.erase (h.location d)) u) : Holds d (h :: rest) t u

namespace Holds

variable {d l : Location} {held : List Held} {t u : FileTree}

theorem grows (h : Holds d held t u) : Grows u t := by
  induction h with
  | nil => exact .refl _
  | cons hfile _ ih => exact ih.trans (grows_erase hfile)

theorem fills (h : Holds d held t u) : Fills u t := by
  induction h with
  | nil => exact .refl _
  | cons hfile _ ih => exact ih.trans (fills_erase hfile)

/-- Where a temporary file stands, nothing is in the tree without it. -/
theorem free (h : Holds d held t u) : ∀ f ∈ held, u.get? (f.location d) = none := by
  induction h with
  | nil => simp
  | cons hfile hrest ih =>
      intro f hf
      rcases List.mem_cons.1 hf with rfl | hf
      · exact hrest.grows.missing _ (get?_erase_self (ne_nil_of_file hfile) _)
      · exact ih f hf

/-- Elsewhere the trees are the same. -/
theorem get?_eq (h : Holds d held t u) (hl : ∀ f ∈ held, f.location d ≠ l) :
    t.get? l = u.get? l := by
  induction h with
  | nil => rfl
  | cons hfile _ ih =>
      rw [← ih fun f hf => hl f (List.mem_cons_of_mem _ hf),
        get?_erase_of_ne (Ne.symm (hl _ List.mem_cons_self))]

theorem put (h : Holds d held t u) (hl : ∀ f ∈ held, f.location d ≠ l) (n : FileNode) :
    Holds d held (t.put l n) (u.put l n) := by
  induction h with
  | nil => exact .nil
  | @cons first rest t u hfile _ ih =>
      have hne : first.location d ≠ l := hl _ List.mem_cons_self
      refine .cons ?_ ?_
      · rw [get?_put_of_ne hne, hfile]
      · rw [erase_put_of_ne hne]
        exact ih fun f hf => hl f (List.mem_cons_of_mem _ hf)

theorem erase (h : Holds d held t u) (hl : ∀ f ∈ held, f.location d ≠ l) :
    Holds d held (t.erase l) (u.erase l) := by
  induction h with
  | nil => exact .nil
  | @cons first rest t u hfile _ ih =>
      have hne : first.location d ≠ l := hl _ List.mem_cons_self
      refine .cons ?_ ?_
      · rw [get?_erase_of_ne hne, hfile]
      · rw [erase_comm]
        exact ih fun f hf => hl f (List.mem_cons_of_mem _ hf)

/-- Where the plugin directory is, the temporary files in it can be discarded. -/
theorem discardAll {directory : Path} (h : Holds d held t u) (hopens : OpensAt u directory d)
    (hchildren : ∀ f ∈ held, IsChild directory f.temporary) :
    Manage.discardAll (stagedFor directory held) t = u := by
  induction h with
  | nil => rfl
  | @cons first rest t u hfile hrest ih =>
      have hchild : IsChild directory first.temporary := hchildren _ List.mem_cons_self
      have hopens' : OpensAt t directory d := hopens.grows (Holds.cons hfile hrest).grows
      have hlocate : t.locate false (Path.join directory first.temporary) =
          .ok (first.location d) := by
        rw [join_name directory hchild.name]
        refine hopens'.locate_child hchild (fun target hlink => ?_) false
        exact ne_link_of_free (.inr ⟨_, _, hfile⟩) target hlink
      have hfirst := discard_of_locate hfile hlocate
      show Manage.discardAll (stagedFor directory rest)
        (t.discard (Path.join directory first.temporary)) = u
      rw [hfirst]
      exact ih hopens fun f hf => hchildren f (List.mem_cons_of_mem _ hf)

end Holds

/-- Discarding makes nothing. -/
theorem get?_discardAll {staged : List Staged} {t : FileTree} {l : Location} {n : FileNode}
    (h : (discardAll staged t).get? l = some n) : t.get? l = some n := by
  induction staged generalizing t with
  | nil => exact h
  | cons s rest ih =>
      have hfirst : (t.discard s.temporary).get? l = some n := ih h
      unfold FileTree.discard at hfirst
      split at hfirst
      · rename_i t' hremove
        obtain ⟨k, rfl⟩ := removeFile_ok hremove
        by_cases hlk : l = k
        · subst hlk
          by_cases hroot : l = []
          · rw [hroot] at hfirst ⊢
            exact hfirst
          · rw [get?_erase_self hroot] at hfirst
            cases hfirst
        · rwa [get?_erase_of_ne hlk] at hfirst
      · exact hfirst

/-! ## Temporary files -/

theorem temporaryName_eq (n : Nat) :
    ∃ digits : Bytes, temporaryName n = dot :: 116 :: digits ∧ slash ∉ digits := by
  have hstart : utf8 ".tmp" = [dot, 116, 109, 112] := by decide
  refine ⟨[109, 112] ++ (List.range 6).reverse.map fun i => UInt8.ofNat (48 + n / Nat.pow 10 i % 10),
    ?_, ?_⟩
  · rw [temporaryName, hstart]
    rfl
  · simp only [List.mem_append, List.mem_map, not_or]
    refine ⟨by decide, ?_⟩
    rintro ⟨i, -, hi⟩
    have hdigit := congrArg UInt8.toNat hi
    rw [UInt8.toNat_ofNat'] at hdigit
    have hslash : slash.toNat = 47 := rfl
    omega

theorem isName_temporaryName (n : Nat) : IsName (temporaryName n) := by
  obtain ⟨digits, hdigits, hslash⟩ := temporaryName_eq n
  rw [hdigits]
  refine ⟨by simp, by simp, by simp [dot], ?_⟩
  simpa [slash, dot] using hslash

/-- Temporary files are hidden. -/
theorem head?_temporaryName (n : Nat) : (temporaryName n).head? = some dot := by
  obtain ⟨digits, hdigits, -⟩ := temporaryName_eq n
  rw [hdigits]
  rfl

section Temporary

variable {directory : Path} {t t' : FileTree}

theorem makeTemporary_ok {attempts number : Nat} {p : Path}
    (h : makeTemporary directory attempts number t = (.ok p, t')) :
    ∃ k l, p = Path.join directory (temporaryName k) ∧ t.locate false p = .ok l ∧
      t.get? l = none ∧ t' = t.put l (.file temporaryMode []) := by
  induction attempts generalizing number with
  | zero => cases h
  | succ attempts ih =>
      unfold makeTemporary at h
      dsimp only at h
      split at h
      · rename_i made hmade
        cases h
        obtain ⟨l, hl, hnone, rfl⟩ := makeNew_ok hmade
        exact ⟨number, l, rfl, hl, hnone, rfl⟩
      · split at h
        · exact ih h
        · cases h

theorem makeTemporary_error {attempts number : Nat} {e : InstallError}
    (h : makeTemporary directory attempts number t = (.error e, t')) : t' = t := by
  induction attempts generalizing number with
  | zero =>
      cases h
      rfl
  | succ attempts ih =>
      unfold makeTemporary at h
      dsimp only at h
      split at h
      · cases h
      · split at h
        · exact ih h
        · cases h
          rfl

end Temporary

/-! ## Staging -/

section Staging

variable {directory : Path} {d : Location} {t t' : FileTree}

/-- With a temporary file made, a program is staged if it can be read; if it cannot, the temporary file
is taken away. -/
theorem stageProgram_run {source : Path} {name : Bytes} {k : Nat} {l : Location}
    (hmade : makeTemporary directory temporaryAttempts 0 t =
      (.ok (Path.join directory (temporaryName k)), t.put l (.file temporaryMode [])))
    (hl : t.locate false (Path.join directory (temporaryName k)) = .ok l)
    (hnone : t.get? l = none) :
    stageProgram directory source name t =
      match (t.put l (.file temporaryMode [])).read source with
      | .error e => (.error (.io e), t)
      | .ok data =>
          (.ok ⟨Path.join directory (temporaryName k), Path.join directory name⟩,
            t.put l (.file programMode data)) := by
  have hslash : (Path.join directory (temporaryName k)).getLast? ≠ some slash := by
    rw [join_name directory (isName_temporaryName k)]
    exact getLast?_concat_ne _ (isName_temporaryName k)
  unfold stageProgram
  rw [bind_of_ok hmade]
  unfold onFailure
  rw [bind_run, FileAction.ask_eq]
  cases (t.put l (.file temporaryMode [])).read source with
  | error e =>
      dsimp only [Except.mapError]
      rw [show discardAll [_] _ = (t.put l (.file temporaryMode [])).discard _ from rfl,
        discard_new hl hnone]
  | ok data =>
      dsimp only [Except.mapError]
      rw [bind_of_ok (change_eq_ok_iff.2 (write_new hl hnone hslash temporaryMode [] data)),
        bind_of_ok (change_eq_ok_iff.2 (setMode_new hl hnone temporaryMode programMode data))]
      rfl

theorem stageProgram_error {source : Path} {name : Bytes} {e : InstallError}
    (h : stageProgram directory source name t = (.error e, t')) : t' = t := by
  cases hmade : makeTemporary directory temporaryAttempts 0 t with
  | mk r made =>
      cases r with
      | error error =>
          unfold stageProgram at h
          rw [bind_run, hmade] at h
          cases h
          exact makeTemporary_error hmade
      | ok p =>
          obtain ⟨k, l, rfl, hl, hnone, rfl⟩ := makeTemporary_ok hmade
          rw [stageProgram_run hmade hl hnone] at h
          split at h
          · cases h
            rfl
          · cases h

/-- A program that is staged has been copied to a new file. -/
theorem stageProgram_ok {source : Path} {name : Bytes} {staged : Staged}
    (h : stageProgram directory source name t = (.ok staged, t')) :
    ∃ k l data, staged = ⟨Path.join directory (temporaryName k), Path.join directory name⟩ ∧
      t.locate false (Path.join directory (temporaryName k)) = .ok l ∧ t.get? l = none ∧
      (t.put l (.file temporaryMode [])).read source = .ok data ∧
      t' = t.put l (.file programMode data) := by
  have hall := h
  unfold stageProgram at h
  obtain ⟨p, made, hmade, -⟩ := bind_ok h
  obtain ⟨k, l, rfl, hl, hnone, rfl⟩ := makeTemporary_ok hmade
  rw [stageProgram_run hmade hl hnone] at hall
  split at hall
  · cases hall
  · rename_i data hread
    cases hall
    exact ⟨k, l, data, rfl, hl, hnone, hread, rfl⟩

/-- When staging fails, the tree is as it was. -/
theorem stageAll_error {programs : List Path} {e : InstallError}
    (h : stageAll directory programs t = (.error e, t')) : t' = t := by
  induction programs generalizing t t' e with
  | nil => cases h
  | cons source rest ih =>
      unfold stageAll at h
      cases hname : Path.fileName source with
      | none =>
          rw [hname] at h
          exact ih h
      | some name =>
          rw [hname] at h
          dsimp only at h
          rw [bind_run] at h
          cases hfirst : stageProgram directory source name t with
          | mk r s =>
              rw [hfirst] at h
              cases r with
              | error error =>
                  cases h
                  exact stageProgram_error hfirst
              | ok staged =>
                  obtain ⟨k, l, data, rfl, hl, hnone, -, rfl⟩ := stageProgram_ok hfirst
                  dsimp only at h
                  unfold onFailure at h
                  rw [bind_run] at h
                  cases hrest : stageAll directory rest (t.put l (.file programMode data)) with
                  | mk r' s' =>
                      rw [hrest] at h
                      cases r' with
                      | ok more => cases h
                      | error error =>
                          obtain rfl := ih hrest
                          cases h
                          exact discard_new hl hnone _ _

/-- An executable that is there is the same when a new file has been made. -/
theorem Executable.isAt_of_put {l : Location} {p : Path} {e : Executable} {mode : Nat}
    {data other : Bytes} (hread : t.read p = .ok data) (hnone : t.get? l = none)
    (h : e.IsAt (t.put l (.file mode other)) p) : e.IsAt t p := by
  refine ⟨h.name, ?_⟩
  rw [hread, ← read_put hread hnone mode other, h.data]

/-- Programs that are there are staged as executables in temporary files, which are hidden files in
the plugin directory. -/
theorem stageAll_ok (hopens : OpensAt t directory d) {programs : List Path}
    (hthere : ∀ p ∈ programs, (∃ name, Path.fileName p = some name) ∧ ∃ data, t.read p = .ok data)
    {staged : List Staged} (h : stageAll directory programs t = (.ok staged, t')) :
    ∃ held, List.Forall₂ (fun p f => Executable.IsAt t p f.executable) programs held ∧
      staged = stagedFor directory held ∧ Holds d held t' t ∧
      ∀ f ∈ held, IsChild directory f.temporary ∧ f.temporary.head? = some dot := by
  induction programs generalizing t t' staged with
  | nil =>
      cases h
      exact ⟨[], .nil, rfl, .nil, by simp⟩
  | cons source rest ih =>
      obtain ⟨⟨⟨name, hname⟩, data, hread⟩, hrestThere⟩ := List.forall_mem_cons.1 hthere
      unfold stageAll at h
      rw [hname] at h
      obtain ⟨first, s, hfirst, hguarded⟩ := bind_ok h
      obtain ⟨k, l, data', rfl, hl, hnone, hread', rfl⟩ := stageProgram_ok hfirst
      obtain ⟨more, s', hmore, hend⟩ := bind_ok (onFailure_ok hguarded)
      cases hend
      rw [read_put hread hnone] at hread'
      cases hread'
      have htemporary := isName_temporaryName k
      rw [join_name directory htemporary] at hl
      obtain ⟨rfl, hchild⟩ := locate_name_fills (.refl t) hopens htemporary hl
      have hgrows : Grows t (t.put (d ++ [temporaryName k]) (.file programMode data)) :=
        .put (.inl hnone) (by simp)
      obtain ⟨held, hes, rfl, hholds, hheld⟩ := ih (hopens.grows hgrows)
        (fun p hp => ⟨(hrestThere p hp).1, (hrestThere p hp).2.imp fun other hother =>
          read_put hother hnone programMode data⟩) hmore
      have hput : (t.put (d ++ [temporaryName k]) (.file programMode data)).get?
          (d ++ [temporaryName k]) = some (.file programMode data) := get?_put_self (by simp) _
      have hapart : ∀ f ∈ held, f.location d ≠ d ++ [temporaryName k] := by
        intro f hf heq
        have hfree := hholds.free f hf
        rw [heq, hput] at hfree
        cases hfree
      refine ⟨⟨temporaryName k, ⟨name, data⟩⟩ :: held, .cons ⟨hname, hread⟩ ?_, rfl, .cons ?_ ?_, ?_⟩
      · have hboth := (List.forall₂_and_left rest held).2 ⟨fun p hp => (hrestThere p hp).2, hes⟩
        refine hboth.imp fun p f hp => ?_
        obtain ⟨⟨other, hother⟩, hat⟩ := hp
        exact Executable.isAt_of_put hother hnone hat
      · exact (hholds.get?_eq hapart).trans hput
      · have herased := hholds.erase hapart
        rw [erase_put_self, erase_of_none hnone] at herased
        exact herased
      · intro f hf
        rcases List.mem_cons.1 hf with rfl | hf
        · exact ⟨hchild, head?_temporaryName k⟩
        · exact hheld f hf

end Staging

/-! ## Moving -/

/-- The moves of programs to their places, with what is moved, up to the first that fails. -/
def movesOf (t : FileTree) : List Staged → List (Location × FileNode)
  | [] => []
  | s :: rest =>
      match t.moveOf s.temporary s.place with
      | .error _ => []
      | .ok m => (m.new, m.node) :: movesOf (m.made t) rest

/-- The world when a program has been moved and this has been told. -/
def noted (w : World) (m : Move) (s : Staged) : World :=
  { w with
    files := m.made w.files
    log := w.log ++ [⟨.info, .manager, "Installed plugin file " ++ Path.display s.place⟩] }

section Run

variable {s : Staged} {w : World}

theorem placeAll_of_error {error : IoError}
    (h : w.files.moveOf s.temporary s.place = .error error) (rest : List Staged) :
    placeAll (s :: rest) w =
      (.error (.io error), { w with files := discardAll (s :: rest) w.files }) := by
  have hrename : w.files.rename s.temporary s.place = .error error := by
    rw [rename_eq, h]
    rfl
  rw [placeAll, bind_run, Task.onFiles_eq]
  simp only [onFailure, change, hrename]

theorem placeAll_of_ok {m : Move} (h : w.files.moveOf s.temporary s.place = .ok m)
    (rest : List Staged) :
    placeAll (s :: rest) w =
      ((placeAll rest (noted w m s)).1.map (s.place :: ·), (placeAll rest (noted w m s)).2) := by
  have hrename : w.files.rename s.temporary s.place = .ok (m.made w.files) := by
    rw [rename_eq, h]
    rfl
  rw [placeAll, bind_run, Task.onFiles_eq]
  simp only [onFailure, change, hrename]
  rw [bind_run]
  unfold Task.note
  dsimp only
  rw [bind_run]
  unfold noted
  cases placeAll rest _ with
  | mk r w' => cases r <;> rfl

end Run

/-- What moving executables from their temporary files leaves behind, in the terms of the tree without
these.  Some of the entries have been made, in order, and there is no link that the tree with these
entries does not hold.  If all were moved, or if no link has been replaced since the plugin directory
was found, then nothing but these entries is left. -/
structure Places (directory : Path) (d : Location) (ready u : FileTree) (held : List Held)
    (moves : List (Location × FileNode)) (result : Except InstallError (List Path))
    (after : FileTree) : Prop where
  moved : moves <+: entriesIn d (held.map (·.executable))
  fills : Fills ready (putAll u moves)
  links : ∀ l target, after.get? l = some (.link target) →
    (putAll u moves).get? l = some (.link target)
  files : (∃ paths, result = .ok paths) ∨
    Grows ready u ∧ (∀ m ∈ moves, ∀ target, ready.get? m.1 ≠ some (.link target)) →
      after = putAll u moves
  done : ∀ paths, result = .ok paths →
    paths = held.map (fun f => Path.join directory f.executable.name) ∧
      moves = entriesIn d (held.map (·.executable)) ∧
      ∀ f ∈ held, IsChild directory f.executable.name
  failed : ∀ e, result = .error e → ∃ error, e = .io error

section Moving

variable {directory : Path} {d : Location} {ready : FileTree}

/-- The first executable cannot be moved: the temporary files are discarded. -/
theorem places_error {held : List Held} {t u : FileTree} (hopens : OpensAt ready directory d)
    (hchildren : ∀ f ∈ held, IsChild directory f.temporary) (hfills : Fills ready u)
    (hholds : Holds d held t u) (error : IoError) :
    Places directory d ready u held [] (.error (.io error))
      (discardAll (stagedFor directory held) t) where
  moved := List.nil_prefix
  fills := hfills
  links l target hl := (hholds.grows.link l target).1 (get?_discardAll hl)
  files h := by
    rcases h with ⟨paths, hpaths⟩ | ⟨hgrows, -⟩
    · cases hpaths
    · exact hholds.discardAll (hopens.grows hgrows) hchildren
  done _ h := by cases h
  failed _ h := ⟨error, (Except.error.inj h).symm⟩

/-- Behind an executable that was moved, the others are moved. -/
theorem Places.cons {f : Held} {rest : List Held} {u after : FileTree}
    {moves : List (Location × FileNode)} {result : Except InstallError (List Path)}
    (hdirectory : u.get? (d ++ [f.executable.name]) ≠ some .directory)
    (hchild : IsChild directory f.executable.name)
    (h : Places directory d ready (u.put (d ++ [f.executable.name]) f.node) rest moves result after) :
    Places directory d ready u (f :: rest) ((d ++ [f.executable.name], f.node) :: moves)
      (result.map (Path.join directory f.executable.name :: ·)) after where
  moved := by
    rw [List.map_cons, entriesIn, List.map_cons]
    exact (List.prefix_cons_inj _).2 h.moved
  fills := h.fills
  links := h.links
  files hall := by
    refine h.files (hall.imp ?_ ?_)
    · rintro ⟨paths, hpaths⟩
      cases result with
      | error e => cases hpaths
      | ok more => exact ⟨more, rfl⟩
    · rintro ⟨hgrows, hlinks⟩
      refine ⟨hgrows.trans (.put ?_ (by simp [Held.node])), fun m hm => hlinks m (by simp [hm])⟩
      -- What is replaced is neither a directory nor a link, so it is a file if it is anything.
      cases hold : u.get? (d ++ [f.executable.name]) with
      | none => exact .inl rfl
      | some n =>
          cases n with
          | directory => exact absurd hold hdirectory
          | file mode data => exact .inr ⟨mode, data, rfl⟩
          | link target => exact absurd ((hgrows.link _ target).1 hold) (hlinks _ List.mem_cons_self target)
  done paths hpaths := by
    cases result with
    | error e => cases hpaths
    | ok more =>
        cases hpaths
        obtain ⟨rfl, rfl, hchildren⟩ := h.done more rfl
        exact ⟨rfl, rfl, List.forall_mem_cons.2 ⟨hchild, hchildren⟩⟩
  failed e he := by
    cases result with
    | error error =>
        cases he
        exact h.failed e rfl
    | ok more => cases he

/-- When the first executable is moved, it goes from its temporary file to its name in the plugin
directory. -/
theorem moveOf_held {f : Held} {rest : List Held} {t u : FileTree} (hopens : OpensAt ready directory d)
    (htemporary : IsChild directory f.temporary) (hname : IsName f.executable.name)
    (hfills : Fills ready u) (hholds : Holds d (f :: rest) t u) {m : Move}
    (h : t.moveOf (Path.join directory f.temporary) (Path.join directory f.executable.name) = .ok m) :
    m = ⟨f.location d, d ++ [f.executable.name], f.node⟩ ∧ IsChild directory f.executable.name ∧
      u.get? (d ++ [f.executable.name]) ≠ some .directory := by
  have hfillsHeld : Fills ready t := hfills.trans hholds.fills
  obtain ⟨hold, hnew, hnode, hdirectory⟩ := moveOf_ok h
  rw [join_name directory htemporary.name] at hold
  rw [join_name directory hname] at hnew
  obtain ⟨hfrom, -⟩ := locate_name_fills hfillsHeld hopens htemporary.name hold
  obtain ⟨hto, hchild⟩ := locate_name_fills hfillsHeld hopens hname hnew
  have hkept := hholds.grows.directory (d ++ [f.executable.name])
  cases hholds with
  | cons hfile _ =>
      obtain ⟨old, new, node⟩ := m
      have hlocation : old = f.location d := hfrom
      subst hlocation
      cases hto
      rw [hfile] at hnode
      cases hnode
      exact ⟨rfl, hchild, fun hd => hdirectory (hkept hd)⟩

/-- Moving executables makes their entries, up to the first that cannot be moved. -/
theorem placeAll_places (hopens : OpensAt ready directory d) {held : List Held}
    (hchildren : ∀ f ∈ held, IsChild directory f.temporary)
    (hnames : ∀ f ∈ held, IsName f.executable.name)
    (hapart : held.Pairwise fun f g => f.executable.name ≠ g.temporary) {w : World} {u : FileTree}
    (hfills : Fills ready u) (hholds : Holds d held w.files u) :
    Places directory d ready u held (movesOf w.files (stagedFor directory held))
      (placeAll (stagedFor directory held) w).1 (placeAll (stagedFor directory held) w).2.files := by
  induction held generalizing w u with
  | nil =>
      cases hholds
      refine ⟨List.nil_prefix, hfills, fun _ _ h => h, fun _ => rfl, ?_, ?_⟩
      · rintro paths h
        cases h
        exact ⟨rfl, rfl, by simp⟩
      · intro e h
        cases h
  | cons f rest ih =>
      obtain ⟨hchild, hchildren'⟩ := List.forall_mem_cons.1 hchildren
      obtain ⟨hname, hnames'⟩ := List.forall_mem_cons.1 hnames
      obtain ⟨hfirst, hapart'⟩ := List.pairwise_cons.1 hapart
      have hstaged : stagedFor directory (f :: rest) =
          ⟨Path.join directory f.temporary, Path.join directory f.executable.name⟩ ::
            stagedFor directory rest := rfl
      rw [hstaged, movesOf]
      cases hmove : w.files.moveOf (Path.join directory f.temporary)
          (Path.join directory f.executable.name) with
      | error error =>
          rw [placeAll_of_error hmove]
          exact places_error hopens hchildren hfills hholds error
      | ok m =>
          rw [placeAll_of_ok hmove]
          obtain ⟨rfl, hchildName, hdirectory⟩ := moveOf_held hopens hchild hname hfills hholds hmove
          cases hholds with
          | cons hfile hrest =>
              have hplace : ∀ g ∈ rest, g.location d ≠ d ++ [f.executable.name] := by
                intro g hg heq
                have hsame : [g.temporary] = [f.executable.name] := List.append_cancel_left heq
                exact hfirst g hg (List.cons.inj hsame).1.symm
              have hfills' : Fills ready (u.put (d ++ [f.executable.name]) f.node) :=
                hfills.trans (.put hdirectory programMode f.executable.data)
              have hrest' : Holds d rest (noted w ⟨f.location d, d ++ [f.executable.name], f.node⟩
                  ⟨Path.join directory f.temporary, Path.join directory f.executable.name⟩).files
                  (u.put (d ++ [f.executable.name]) f.node) := hrest.put hplace f.node
              exact Places.cons hdirectory hchildName (ih hchildren' hnames' hapart' hfills' hrest')

end Moving

end PluginHost.Manage
