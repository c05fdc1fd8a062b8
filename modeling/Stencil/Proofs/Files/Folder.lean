import Stencil.Files
import Stencil.Proofs.Files.Path

/-!
Folders that are made and removed. A folder that is made where nothing is adds itself and nothing else,
a text that is written to a name in it lies in it, and removing it leaves the files as they were
(`removeFolder_of_free`).
-/

namespace Stencil.Files

structure Free (f : Files) (place : List String) : Prop where
  filled : place ≠ []
  folders : ∀ p ∈ f.folders, ¬place <+: p
  texts : ∀ t ∈ f.texts, ¬place <+: t.1

def withFolder (f : Files) (place : List String) : Files := { f with folders := f.folders ++ [place] }

def withText (f : Files) (place : List String) (text : String) : Files :=
  { f with texts := f.texts.filter (fun t => t.1 != place) ++ [(place, text)] }

variable {f g : Files} {place p : List String} {path : String}

theorem hasFolder_withFolder : (f.withFolder place).hasFolder p = (f.hasFolder p || p == place) := by
  simp only [hasFolder, withFolder, List.contains_append, List.contains_cons, List.contains_nil,
    Bool.or_false, Bool.or_assoc]

def enter (at_ : List String) (s : String) : List String :=
  if s == ".." then at_.tail else s :: at_

theorem follow_cons (at_ : List String) (s : String) (rest : List String) :
    f.follow at_ (s :: rest) =
      if f.hasFolder at_.reverse then f.follow (enter at_ s) rest else none := by
  rw [follow, enter]
  cases f.hasFolder at_.reverse <;> cases s == ".." <;> rfl

theorem follow_append (at_ before after : List String) :
    f.follow at_ (before ++ after) = (f.follow at_ before).bind fun p => f.follow p.reverse after := by
  induction before generalizing at_ with
  | nil => simp [follow]
  | cons s rest ih =>
    rw [List.cons_append, follow_cons, follow_cons]
    cases f.hasFolder at_.reverse with
    | false => rfl
    | true => exact ih (enter at_ s)

theorem follow_mono (more : ∀ q, f.hasFolder q = true → g.hasFolder q = true) {at_ ss : List String}
    (h : f.follow at_ ss = some p) : g.follow at_ ss = some p := by
  induction ss generalizing at_ with
  | nil => exact h
  | cons s rest ih =>
    rw [follow_cons, Option.ite_none_right_eq_some] at h
    rw [follow_cons, if_pos (more _ h.1)]
    exact ih h.2

def Reached (f : Files) (place : List String) : Prop :=
  ∀ p, p <+: place → p ≠ place → f.hasFolder p = true

theorem Reached.enter {at_ : List String} (h : f.Reached at_.reverse)
    (there : f.hasFolder at_.reverse = true) (s : String) : f.Reached (enter at_ s).reverse := by
  rw [Files.enter]
  split
  · -- going up leads to a place on the way
    cases at_ with
    | nil => exact h
    | cons t rest =>
      rw [List.reverse_cons] at h
      intro p below other
      refine h p (below.trans (List.prefix_append _ _)) fun same => ?_
      rw [same] at below
      have longer := below.length_le
      rw [List.tail_cons, List.length_append, List.length_singleton] at longer
      omega
  · intro p below other
    rw [List.reverse_cons] at below other
    obtain same | below := List.prefix_concat_iff.1 below
    · exact absurd same other
    · by_cases same : p = at_.reverse
      · rw [same]
        exact there
      · exact h p below same

theorem Reached.follow {at_ ss : List String} (start : f.Reached at_.reverse)
    (h : f.follow at_ ss = some p) : f.Reached p := by
  induction ss generalizing at_ with
  | nil =>
    cases h
    exact start
  | cons s rest ih =>
    rw [follow_cons, Option.ite_none_right_eq_some] at h
    exact ih (start.enter h.1 s) h.2

theorem reached_of_place? (h : f.place? path = some place) : f.Reached place := by
  have root : f.Reached ([] : List String).reverse := fun p below other =>
    absurd (List.prefix_nil.1 below) other
  exact root.follow h

theorem filter_beginnings {keep : List String → Bool} (kept : keep place = true)
    (others : ∀ p, p <+: place → p ≠ place → keep p = false) :
    (beginnings place).filter keep = [place] := by
  induction place generalizing keep with
  | nil => simp [beginnings, kept]
  | cons s rest ih =>
    have root : keep [] = false := others [] List.nil_prefix (by simp)
    rw [beginnings, List.filter_cons, root, List.filter_map]
    simp only [Bool.false_eq_true, if_false]
    have below : (beginnings rest).filter (keep ∘ (s :: ·)) = [rest] :=
      ih kept fun p below other =>
        others (s :: p) (List.cons_prefix_cons.2 ⟨rfl, below⟩) fun same => other (List.cons.inj same).2
    rw [below]
    rfl

theorem makeFolder_of_free (h : f.place? path = some place) (free : f.Free place) :
    f.makeFolder place = f.withFolder place := by
  rw [makeFolder, withFolder, filter_beginnings]
  · have missing : place ∉ f.folders := fun there => free.folders place there (List.prefix_refl place)
    simp [free.filled, missing]
  · intro p below other
    have there := reached_of_place? h p below other
    rw [hasFolder] at there
    cases he : p.isEmpty with
    | true => rfl
    | false =>
      rw [he, Bool.false_or] at there
      rw [there]
      rfl

theorem place?_withText (q : List String) (text : String) :
    (f.withText q text).place? path = f.place? path := by
  have same (at_ ss : List String) : (f.withText q text).follow at_ ss = f.follow at_ ss := by
    induction ss generalizing at_ with
    | nil => rfl
    | cons s rest ih => rw [follow_cons, follow_cons, ih]; rfl
  exact same _ _

theorem place?_withFolder (h : f.place? path = some place) :
    (f.withFolder p).place? path = some place :=
  follow_mono (fun q there => by rw [hasFolder_withFolder, there, Bool.true_or]) h

theorem isFolder_withFolder (h : f.place? path = some place) :
    (f.withFolder place).isFolder path = true := by
  rw [isFolder, place?_withFolder h]
  simp [hasFolder_withFolder]

theorem isFolder_withText (q : List String) (text : String) :
    (f.withText q text).isFolder path = f.isFolder path := by
  rw [isFolder, isFolder, place?_withText]
  rfl

theorem Free.hasFolder (free : f.Free place) (below : place <+: p) : f.hasFolder p = false := by
  have filled : p ≠ [] := fun h => free.filled (List.prefix_nil.1 (h ▸ below))
  have missing : p ∉ f.folders := fun there => free.folders p there below
  simp [Files.hasFolder, filled, missing]

theorem Free.isFolder (free : f.Free place) (h : f.place? path = some place) :
    f.isFolder path = false := by
  rw [Files.isFolder, h]
  exact free.hasFolder (List.prefix_refl place)

theorem place?_inside {folder name s : String} {rest : List String} (free : f.Free place)
    (h : f.place? folder = some place) (relative : Path.isAbsolute name = false)
    (begins : Path.segments name = s :: rest) (down : s ≠ "..")
    (hp : (f.withFolder place).place? (Path.normal (Path.join folder name)) = some p) :
    p = place ++ [s] := by
  have there : (f.withFolder place).follow []
      (Path.segments (Path.join f.working folder)) = some place := place?_withFolder h
  have made : (f.withFolder place).hasFolder place.reverse.reverse = true := by
    simp [hasFolder_withFolder]
  rw [place?] at hp
  change (f.withFolder place).follow [] (Path.segments (Path.join f.working _)) = some p at hp
  rw [Path.segments_join_normal relative, follow_append, there, begins, Option.bind_some, follow_cons,
    if_pos made] at hp
  have entered : enter place.reverse s = s :: place.reverse := if_neg (by simpa using down)
  rw [entered] at hp
  cases rest with
  | nil =>
    rw [follow] at hp
    cases hp
    simp
  | cons s' rest =>
    have nothing : (f.withFolder place).hasFolder (s :: place.reverse).reverse = false := by
      rw [hasFolder_withFolder, List.reverse_cons, List.reverse_reverse,
        free.hasFolder (List.prefix_append place [s])]
      simp
    rw [follow_cons, nothing] at hp
    cases hp

theorem of_write? {text : String} (h : f.write? path text = some g) :
    ∃ p, f.place? path = some p ∧ g = f.withText p text := by
  rw [write?] at h
  cases hp : f.place? path with
  | none =>
    rw [hp] at h
    cases h
  | some p =>
    rw [hp] at h
    dsimp only at h
    split at h
    · cases h
    · cases h
      exact ⟨p, rfl, rfl⟩

/-- Removing a folder that was made where nothing was, with a text that was written into it, leaves
the files as they were. -/
theorem removeFolder_of_free {folder text : String} (free : f.Free place)
    (h : f.place? folder = some place) (below : place <+: p) :
    ((f.withFolder place).withText p text).removeFolder folder = f := by
  have apart {α : Type} (key : α → List String) {as : List α} (others : ∀ a ∈ as, ¬place <+: key a) :
      as.filter (fun a => !place.isPrefixOf (key a)) = as := by
    rw [List.filter_eq_self]
    intro a ha
    simpa [← List.isPrefixOf_iff_prefix] using others a ha
  rw [removeFolder, place?_withText, place?_withFolder h]
  have folders := apart id free.folders
  have others : f.texts.filter (fun t => t.1 != p) = f.texts := by
    rw [List.filter_eq_self]
    intro t ht
    simpa using fun same : t.1 = p => free.texts t ht (same ▸ below)
  have texts := apart Prod.fst free.texts
  simp only [id_eq] at folders
  simp [withText, withFolder, List.filter_append, folders, others, texts, below]

end Stencil.Files
