import Tanpopo.Lib.Runs
import Tanpopo.Lib.Table
import Mathlib
/-!
# Publication of a Fast GGUF package

`MLXGGUFConversionCache.store` fills a directory of its own and then moves the
shards, the assets and at last the manifest next to the source. Several
processes may do so at once, each may be interrupted anywhere.

- `publication_atomic_iff`: when every file that a manifest names is there.
-/

namespace Tanpopo.FastGGUF.Publication

inductive Content where
  | incomplete
  | complete
  deriving DecidableEq

/-- Where a call of `store` is. The names are those of the shards and the assets. -/
inductive Stage where
  /-- The first look for a manifest. -/
  | entering
  /-- These files are still to be written. -/
  | writing (rest : List String)
  | filling (name : String) (rest : List String)
  /-- The second look for a manifest. -/
  | checking
  /-- `fileExists`, `removeItem` and `moveItem` of one name, before those that are left. -/
  | testing (name : String) (rest : List String)
  | removing (name : String) (rest : List String)
  | moving (name : String) (rest : List String)
  /-- `moveItem` of the manifest. -/
  | publishing
  /-- The `catch` of the publication. -/
  | recovering
  | ended
  deriving DecidableEq

/-- A process that runs `store`: the names of its manifest and its temporary directory. -/
structure Writer where
  names : List String
  temporary : Table String Content
  stage : Stage

/-- The directory of the package, with the names of its manifest. `taken` are the names
that were removed and not moved there since. -/
structure Disk where
  files : Table String Content
  manifest : Option (List String)
  taken : List String

structure World where
  disk : Disk
  writers : List Writer

def Disk.remove (disk : Disk) (name : String) : Disk :=
  { disk with files := disk.files.delete name, taken := name :: disk.taken }

def Disk.place (disk : Disk) (name : String) (content : Content) : Disk :=
  { disk with files := disk.files.set name content, taken := disk.taken.filter (· ≠ name) }

/-- The temporary directory is removed at the end. -/
def Writer.leave (w : Writer) : Writer := { w with temporary := ∅, stage := .ended }

/-- The publication of the names that are left. -/
def publish : List String → Stage
  | [] => .publishing
  | name :: rest => .testing name rest

/-! ## Steps -/

/-- The next file operation. An item that is gone is not removed, and nothing is moved onto an item. -/
def Writer.goes (w : Writer) (disk : Disk) : Option (Writer × Disk) :=
  match w.stage with
  | .entering => some (if disk.manifest.isSome then w.leave else { w with stage := .writing w.names }, disk)
  | .writing [] => some ({ w with stage := .checking }, disk)
  | .writing (name :: rest) =>
    some ({ w with temporary := w.temporary.set name .incomplete, stage := .filling name rest }, disk)
  | .filling name rest => some ({ w with temporary := w.temporary.set name .complete, stage := .writing rest }, disk)
  | .checking => some (if disk.manifest.isSome then w.leave else { w with stage := publish w.names }, disk)
  | .testing name rest =>
    some ({ w with stage := if (disk.files.get? name).isSome then .removing name rest else .moving name rest }, disk)
  | .removing name rest =>
    if (disk.files.get? name).isSome then some ({ w with stage := .moving name rest }, disk.remove name)
    else some ({ w with stage := .recovering }, disk)
  | .moving name rest =>
    if (disk.files.get? name).isSome then some ({ w with stage := .recovering }, disk)
    else match w.temporary.get? name with
      | none => some ({ w with stage := .recovering }, disk)
      | some content =>
        some ({ w with temporary := w.temporary.delete name, stage := publish rest }, disk.place name content)
  | .publishing =>
    if disk.manifest.isSome then some ({ w with stage := .recovering }, disk)
    else some (w.leave, { disk with manifest := some w.names })
  | .recovering => some (w.leave, disk)
  | .ended => none

/-- The next operation throws. Before the publication nothing catches it. -/
def Writer.throws (w : Writer) : Option Writer :=
  match w.stage with
  | .entering | .writing _ | .filling _ _ => some w.leave
  | .removing _ _ | .moving _ _ | .publishing => some { w with stage := .recovering }
  | .checking | .testing _ _ | .recovering | .ended => none

/-- The process is gone, and its temporary directory stays. -/
def Writer.crashes (w : Writer) : Option Writer :=
  if w.stage = .ended then none else some { w with stage := .ended }

inductive Move where
  | goes
  | throws
  | crashes
  deriving DecidableEq

structure Event where
  writer : Nat
  move : Move

def Writer.moves (w : Writer) (disk : Disk) : Move → Option (Writer × Disk)
  | .goes => w.goes disk
  | .throws => w.throws.map (·, disk)
  | .crashes => w.crashes.map (·, disk)

def World.step (world : World) (e : Event) : Option World := do
  let w ← world.writers[e.writer]?
  let (w', disk) ← w.moves world.disk e.move
  return ⟨disk, world.writers.set e.writer w'⟩

/-- No manifest, or all that it names. -/
def Disk.Atomic (disk : Disk) : Prop :=
  ∀ names, disk.manifest = some names → ∀ name ∈ names, disk.files.get? name = some .complete

/-- Before any of the processes has done anything. -/
structure World.Fresh (world : World) : Prop where
  taken : world.disk.taken = []
  writers : ∀ w ∈ world.writers, w.stage = .entering ∧ w.temporary = ∅

/-- The names that readers of the manifest find. -/
def Disk.published (disk : Disk) : List String := disk.manifest.getD []

/-- A file is removed only while no manifest names it, and a manifest is moved only when none
of the files that it names has been removed without one being moved there again. -/
def Writer.keepsPackage (w : Writer) (disk : Disk) : Bool :=
  match w.stage with
  | .removing name _ => name ∉ disk.published
  | .publishing => disk.manifest.isSome || w.names.all fun name => name ∉ disk.taken
  | _ => true

def World.keepsPackage (world : World) (e : Event) : Bool :=
  match world.writers[e.writer]?, e.move with
  | some w, .goes => w.keepsPackage world.disk
  | _, _ => true

/-! ## What every step keeps -/

/-- The names whose files are still to be published, when the publication has begun. -/
def Stage.remaining : Stage → Option (List String)
  | .testing name rest | .removing name rest | .moving name rest => some (name :: rest)
  | .publishing => some []
  | _ => none

/-- The file of the temporary directory that is being written. -/
def Stage.filled : Stage → Option String
  | .filling name _ => some name
  | _ => none

/-- The file is complete, or it was removed. -/
def Disk.Placed (disk : Disk) (name : String) : Prop := disk.files.get? name = some .complete ∨ name ∈ disk.taken

def Disk.Tidy (disk : Disk) : Prop := ∀ name ∈ disk.taken, disk.files.get? name = none

structure Writer.Inv (w : Writer) (disk : Disk) : Prop where
  placed : ∀ rest, w.stage.remaining = some rest → ∀ name ∈ w.names, name ∈ rest ∨ disk.Placed name
  complete : w.stage ≠ .ended → ∀ name content, w.temporary.get? name = some content →
    content = .complete ∨ w.stage.filled = some name

/-- What is placed stays placed. -/
def Disk.Later (disk disk' : Disk) : Prop := ∀ name, disk.Placed name → disk'.Placed name

variable {w w' : Writer} {disk disk' : Disk}

theorem Disk.Later.refl (disk : Disk) : disk.Later disk := fun _ h => h

theorem Writer.Inv.later (hw : w.Inv disk) (h : disk.Later disk') : w.Inv disk' where
  placed rest hrest name hname := (hw.placed rest hrest name hname).imp_right (h name)
  complete := hw.complete

theorem later_remove (name : String) : disk.Later (disk.remove name) := by
  rintro other (hcomplete | htaken)
  · by_cases hother : other = name
    · exact .inr (hother ▸ List.mem_cons_self)
    · refine .inl ?_
      rw [Disk.remove, Table.get?_delete, if_neg hother]
      exact hcomplete
  · exact .inr (List.mem_cons_of_mem _ htaken)

theorem tidy_remove (h : disk.Tidy) (name : String) : (disk.remove name).Tidy := by
  intro other hother
  rw [Disk.remove, Table.get?_delete]
  split
  · rfl
  · rename_i hne
    exact h other ((List.mem_cons.1 hother).resolve_left hne)

theorem placed_place (name : String) : (disk.place name .complete).Placed name := by
  refine .inl ?_
  rw [Disk.place, Table.get?_set, if_pos rfl]

theorem later_place (name : String) : disk.Later (disk.place name .complete) := by
  intro other hplaced
  by_cases hother : other = name
  · rw [hother]
    exact placed_place name
  · refine hplaced.imp (fun hcomplete => ?_) fun htaken => List.mem_filter.2 ⟨htaken, decide_eq_true hother⟩
    rw [Disk.place, Table.get?_set, if_neg hother]
    exact hcomplete

theorem tidy_place (h : disk.Tidy) (name : String) (content : Content) : (disk.place name content).Tidy := by
  intro other hother
  obtain ⟨htaken, hne⟩ := List.mem_filter.1 hother
  rw [Disk.place, Table.get?_set, if_neg (of_decide_eq_true hne)]
  exact h other htaken

theorem remaining_publish (rest : List String) : (publish rest).remaining = some rest := by
  cases rest <;> rfl

theorem filled_publish (rest : List String) : (publish rest).filled = none := by
  cases rest <;> rfl

/-- A writer that goes on as it is, but for the name of its stage. -/
theorem Writer.Inv.restage {stage : Stage} (hw : w.Inv disk)
    (hremaining : stage.remaining = none ∨ stage.remaining = w.stage.remaining) (hrunning : w.stage ≠ .ended)
    (hfilled : w.stage.filled = none) : ({ w with stage } : Writer).Inv disk where
  placed rest hrest := by
    rcases hremaining with hnone | hsame
    · rw [hnone] at hrest
      cases hrest
    · exact hw.placed rest (hsame ▸ hrest)
  complete _ name content hcontent := by
    refine (hw.complete hrunning name content hcontent).imp_right fun hname => ?_
    rw [hfilled] at hname
    cases hname

/-- A writer that has left promises nothing. -/
theorem inv_ended {stage : Stage} (hstage : stage = .ended) (w : Writer) (temporary : Table String Content) (disk : Disk) :
    ({ w with temporary, stage } : Writer).Inv disk where
  placed rest hrest := by
    rw [hstage] at hrest
    cases hrest
  complete hrunning := absurd hstage hrunning

/-- One operation keeps what is known of the writer and of the directory. -/
theorem goes_inv (hw : w.Inv disk) (htidy : disk.Tidy) (h : w.goes disk = some (w', disk')) :
    w'.Inv disk' ∧ disk'.Tidy ∧ disk.Later disk' := by
  unfold Writer.goes at h
  cases hstage : w.stage with
  | entering =>
    rw [hstage] at h
    cases h
    refine ⟨?_, htidy, .refl disk⟩
    split
    · exact inv_ended rfl w ∅ disk
    · exact hw.restage (.inl rfl) (by simp [hstage]) (by rw [hstage]; rfl)
  | writing rest =>
    rw [hstage] at h
    cases rest with
    | nil =>
      cases h
      exact ⟨hw.restage (.inl rfl) (by simp [hstage]) (by rw [hstage]; rfl), htidy, .refl disk⟩
    | cons name rest =>
      cases h
      refine ⟨⟨fun rest' hrest => (by cases hrest), fun _ other content hcontent => ?_⟩, htidy, .refl disk⟩
      rw [Table.get?_set_eq_some] at hcontent
      rcases hcontent with ⟨rfl, -⟩ | ⟨-, hcontent⟩
      · exact .inr rfl
      · refine (hw.complete (by simp [hstage]) other content hcontent).imp_right fun hother => ?_
        rw [hstage] at hother
        cases hother
  | filling name rest =>
    rw [hstage] at h
    cases h
    refine ⟨⟨fun rest' hrest => (by cases hrest), fun _ other content hcontent => ?_⟩, htidy, .refl disk⟩
    rw [Table.get?_set_eq_some] at hcontent
    rcases hcontent with ⟨-, rfl⟩ | ⟨hne, hcontent⟩
    · exact .inl rfl
    · refine (hw.complete (by simp [hstage]) other content hcontent).imp_right fun hother => ?_
      rw [hstage] at hother
      exact absurd (Option.some.inj hother).symm hne
  | checking =>
    rw [hstage] at h
    cases h
    refine ⟨?_, htidy, .refl disk⟩
    split
    · exact inv_ended rfl w ∅ disk
    · -- All names are left.
      refine ⟨fun rest hrest name hname => .inl ?_, fun _ name content hcontent => ?_⟩
      · rw [remaining_publish] at hrest
        cases hrest
        exact hname
      · refine (hw.complete (by simp [hstage]) name content hcontent).imp_right fun hother => ?_
        rw [hstage] at hother
        cases hother
  | testing name rest =>
    rw [hstage] at h
    cases h
    refine ⟨hw.restage (.inr ?_) (by simp [hstage]) (by rw [hstage]; rfl), htidy, .refl disk⟩
    rw [hstage]
    split <;> rfl
  | removing name rest =>
    rw [hstage] at h
    simp only at h
    split at h
    · cases h
      refine ⟨?_, tidy_remove htidy name, later_remove name⟩
      exact (hw.later (later_remove name)).restage (.inr (by rw [hstage]; rfl)) (by simp [hstage]) (by rw [hstage]; rfl)
    · cases h
      exact ⟨hw.restage (.inl rfl) (by simp [hstage]) (by rw [hstage]; rfl), htidy, .refl disk⟩
  | moving name rest =>
    rw [hstage] at h
    simp only at h
    split at h
    · cases h
      exact ⟨hw.restage (.inl rfl) (by simp [hstage]) (by rw [hstage]; rfl), htidy, .refl disk⟩
    cases htemporary : w.temporary.get? name with
    | none =>
      rw [htemporary] at h
      cases h
      exact ⟨hw.restage (.inl rfl) (by simp [hstage]) (by rw [hstage]; rfl), htidy, .refl disk⟩
    | some content =>
      rw [htemporary] at h
      cases h
      have hfilled : w.stage.filled = none := by rw [hstage]; rfl
      have hcomplete : ∀ other content, w.temporary.get? other = some content → content = .complete := by
        intro other content hcontent
        refine (hw.complete (by simp [hstage]) other content hcontent).resolve_right fun hother => ?_
        rw [hfilled] at hother
        cases hother
      obtain rfl := hcomplete name content htemporary
      refine ⟨⟨fun rest' hrest other hother => ?_, fun _ other content hcontent => ?_⟩, tidy_place htidy name _,
        later_place name⟩
      · rw [remaining_publish] at hrest
        cases hrest
        rcases hw.placed (name :: rest) (by rw [hstage]; rfl) other hother with hleft | hplaced
        · rcases List.mem_cons.1 hleft with rfl | hleft
          · exact .inr (placed_place other)
          · exact .inl hleft
        · exact .inr (later_place name other hplaced)
      · exact .inl (hcomplete other content (Table.get?_delete_eq_some.1 hcontent).2)
  | publishing =>
    rw [hstage] at h
    simp only at h
    split at h
    · cases h
      exact ⟨hw.restage (.inl rfl) (by simp [hstage]) (by rw [hstage]; rfl), htidy, .refl disk⟩
    · cases h
      exact ⟨inv_ended rfl w ∅ _, htidy, fun _ hplaced => hplaced⟩
  | recovering =>
    rw [hstage] at h
    cases h
    exact ⟨inv_ended rfl w ∅ disk, htidy, .refl disk⟩
  | ended =>
    rw [hstage] at h
    cases h

theorem throws_inv (hw : w.Inv disk) (h : w.throws = some w') : w'.Inv disk := by
  unfold Writer.throws at h
  cases hstage : w.stage <;> rw [hstage] at h <;> cases h
  case entering | writing | filling => exact inv_ended rfl w ∅ disk
  case removing | moving | publishing => exact hw.restage (.inl rfl) (by simp [hstage]) (by rw [hstage]; rfl)

theorem crashes_inv (h : w.crashes = some w') : w'.Inv disk := by
  unfold Writer.crashes at h
  split at h
  · cases h
  · cases h
    exact inv_ended rfl w w.temporary disk

theorem moves_inv {move : Move} (hw : w.Inv disk) (htidy : disk.Tidy) (h : w.moves disk move = some (w', disk')) :
    w'.Inv disk' ∧ disk'.Tidy ∧ disk.Later disk' := by
  cases move with
  | goes => exact goes_inv hw htidy h
  | throws =>
    obtain ⟨w'', hthrows, heq⟩ := Option.map_eq_some_iff.1 h
    cases heq
    exact ⟨throws_inv hw hthrows, htidy, .refl _⟩
  | crashes =>
    obtain ⟨w'', hcrashes, heq⟩ := Option.map_eq_some_iff.1 h
    cases heq
    exact ⟨crashes_inv hcrashes, htidy, .refl _⟩

/-! ## What readers find -/

/-- What one operation does to the directory. -/
theorem goes_disk (h : w.goes disk = some (w', disk')) :
    (disk' = disk ∧ (∀ name rest, w.stage = .removing name rest → disk.files.get? name = none) ∧
      (w.stage = .publishing → disk.manifest.isSome = true)) ∨
    (∃ name rest, w.stage = .removing name rest ∧ disk' = disk.remove name) ∨
    (∃ name rest content, w.stage = .moving name rest ∧ disk.files.get? name = none ∧ disk' = disk.place name content) ∨
    (w.stage = .publishing ∧ disk.manifest = none ∧ disk' = { disk with manifest := some w.names }) := by
  unfold Writer.goes at h
  cases hstage : w.stage with
  | entering | filling | checking | testing | recovering =>
    rw [hstage] at h
    cases h
    exact .inl ⟨rfl, fun _ _ heq => (by cases heq), fun heq => (by cases heq)⟩
  | writing rest =>
    rw [hstage] at h
    cases rest <;> cases h <;> exact .inl ⟨rfl, fun _ _ heq => (by cases heq), fun heq => (by cases heq)⟩
  | removing name rest =>
    rw [hstage] at h
    simp only at h
    split at h
    · cases h
      exact .inr (.inl ⟨name, rest, rfl, rfl⟩)
    · rename_i hgone
      cases h
      refine .inl ⟨rfl, fun _ _ heq => ?_, fun heq => (by cases heq)⟩
      cases heq
      exact Option.not_isSome_iff_eq_none.1 hgone
  | moving name rest =>
    rw [hstage] at h
    simp only at h
    split at h
    · cases h
      exact .inl ⟨rfl, fun _ _ heq => (by cases heq), fun heq => (by cases heq)⟩
    · rename_i hfree
      cases htemporary : w.temporary.get? name with
      | none =>
        rw [htemporary] at h
        cases h
        exact .inl ⟨rfl, fun _ _ heq => (by cases heq), fun heq => (by cases heq)⟩
      | some content =>
        rw [htemporary] at h
        cases h
        exact .inr (.inr (.inl ⟨name, rest, content, rfl, Option.not_isSome_iff_eq_none.1 hfree, rfl⟩))
  | publishing =>
    rw [hstage] at h
    simp only at h
    split at h
    · rename_i hmanifest
      cases h
      exact .inl ⟨rfl, fun _ _ heq => (by cases heq), fun _ => hmanifest⟩
    · rename_i hmanifest
      cases h
      exact .inr (.inr (.inr ⟨rfl, Option.not_isSome_iff_eq_none.1 hmanifest, rfl⟩))
  | ended =>
    rw [hstage] at h
    cases h

theorem atomic_iff : disk.Atomic ↔ ∀ name ∈ disk.published, disk.files.get? name = some .complete := by
  rw [Disk.Atomic, Disk.published]
  cases disk.manifest with
  | none => exact iff_of_true (fun _ h => (by cases h)) (fun _ h => absurd h List.not_mem_nil)
  | some names => exact ⟨fun h => h names rfl, fun h _ heq => Option.some.inj heq ▸ h⟩

/-- An operation leaves a package whole exactly when it keeps it. -/
theorem goes_atomic_iff (hw : w.Inv disk) (htidy : disk.Tidy) (hatomic : disk.Atomic) (h : w.goes disk = some (w', disk')) :
    disk'.Atomic ↔ w.keepsPackage disk = true := by
  have hpublished := atomic_iff.1 hatomic
  rcases goes_disk h with ⟨rfl, hgone, hmanifest⟩ | ⟨name, rest, hstage, rfl⟩ |
    ⟨name, rest, content, hstage, hfree, rfl⟩ | ⟨hstage, hmanifest, rfl⟩
  · refine iff_of_true hatomic ?_
    unfold Writer.keepsPackage
    split
    · rename_i name rest hstage
      refine decide_eq_true fun hname => ?_
      cases (hgone name rest hstage).symm.trans (hpublished name hname)
    · rename_i hstage
      rw [hmanifest hstage, Bool.true_or]
    · rfl
  · rw [atomic_iff, Writer.keepsPackage, hstage]
    simp only [decide_eq_true_eq]
    constructor
    · intro hall hname
      have hget := hall name hname
      rw [Disk.remove, Table.get?_delete, if_pos rfl] at hget
      cases hget
    · intro hname other hother
      rw [Disk.remove, Table.get?_delete, if_neg]
      · exact hpublished other hother
      · rintro rfl
        exact hname hother
  · -- A file that readers find is there already.
    rw [Writer.keepsPackage, hstage]
    refine iff_of_true (atomic_iff.2 fun other hother => ?_) rfl
    rw [Disk.place, Table.get?_set, if_neg]
    · exact hpublished other hother
    · rintro rfl
      cases hfree.symm.trans (hpublished other hother)
  · rw [Writer.keepsPackage, hstage]
    simp only [hmanifest, Option.isSome_none, Bool.false_or, List.all_eq_true, decide_eq_true_eq]
    rw [atomic_iff]
    change (∀ name ∈ w.names, disk.files.get? name = some .complete) ↔ _
    refine forall₂_congr fun name hname => ?_
    have hplaced := (hw.placed [] (by rw [hstage]; rfl) name hname).resolve_left List.not_mem_nil
    constructor
    · intro hcomplete htaken
      cases (htidy name htaken).symm.trans hcomplete
    · exact hplaced.resolve_right

/-! ## Runs -/

structure World.Inv (world : World) : Prop where
  tidy : world.disk.Tidy
  writers : ∀ w ∈ world.writers, w.Inv world.disk

variable {world world' : World} {e : Event}

theorem step_inv (h : world.step e = some world') :
    ∃ w w' disk', world.writers[e.writer]? = some w ∧ w.moves world.disk e.move = some (w', disk') ∧
      world' = ⟨disk', world.writers.set e.writer w'⟩ := by
  simp only [World.step, Option.bind_eq_bind, Option.bind_eq_some_iff, Option.pure_def, Option.some.injEq, Prod.exists] at h
  obtain ⟨w, hw, w', disk', hmoves, rfl⟩ := h
  exact ⟨w, w', disk', hw, hmoves, rfl⟩

theorem World.Fresh.inv (h : world.Fresh) : world.Inv where
  tidy name hname := by
    rw [h.taken] at hname
    cases hname
  writers w hw := by
    obtain ⟨hstage, htemporary⟩ := h.writers w hw
    refine ⟨fun rest hrest => ?_, fun _ name content hcontent => ?_⟩
    · rw [hstage] at hrest
      cases hrest
    · rw [htemporary] at hcontent
      cases hcontent

theorem World.Inv.step (hworld : world.Inv) (h : world.step e = some world') : world'.Inv := by
  obtain ⟨w, w', disk', hw, hmoves, rfl⟩ := step_inv h
  obtain ⟨hw', htidy, hlater⟩ := moves_inv (hworld.writers w (List.mem_of_getElem? hw)) hworld.tidy hmoves
  refine ⟨htidy, fun other hother => ?_⟩
  rcases List.mem_or_eq_of_mem_set hother with hother | rfl
  · exact (hworld.writers other hother).later hlater
  · exact hw'

theorem step_atomic_iff (hworld : world.Inv ∧ world.disk.Atomic) (h : world.step e = some world') :
    (world'.Inv ∧ world'.disk.Atomic) ↔ world.keepsPackage e = true := by
  rw [and_iff_right (hworld.1.step h)]
  obtain ⟨w, w', disk', hw, hmoves, rfl⟩ := step_inv h
  unfold World.keepsPackage
  rw [hw]
  cases hmove : e.move with
  | goes =>
    rw [hmove] at hmoves
    exact goes_atomic_iff (hworld.1.writers w (List.mem_of_getElem? hw)) hworld.1.tidy hworld.2 hmoves
  | throws | crashes =>
    rw [hmove] at hmoves
    obtain ⟨w'', -, heq⟩ := Option.map_eq_some_iff.1 hmoves
    cases heq
    exact iff_of_true hworld.2 rfl

/-- The steps of the world. -/
def Steps (world : World) (e : Event) (world' : World) : Prop := world.step e = some world'

def keepsAlong : World → List Event → Bool
  | _, [] => true
  | world, e :: events =>
    world.keepsPackage e && match world.step e with
      | none => true
      | some next => keepsAlong next events

theorem keepsPackage_of_keepsAlong {events : List Event} {n : Nat} {mid : World} (h : keepsAlong world events = true)
    (he : events[n]? = some e) (hmid : Run Steps world (events.take n) mid) : mid.keepsPackage e = true := by
  induction events generalizing world n with
  | nil => cases he
  | cons first events ih =>
    rw [keepsAlong, Bool.and_eq_true] at h
    cases n with
    | zero =>
      cases he
      cases hmid
      exact h.1
    | succ n =>
      rw [List.take_succ_cons] at hmid
      cases hmid with
      | cons hstep hrest =>
        have hlater := h.2
        rw [show world.step first = some _ from hstep] at hlater
        exact ih hlater he hrest

def packageNames : List String := ["m-00001-of-00001.fgguf", "m.config.json", "m.tokenizer.json", "m.tokenizer_config.json"]

/-- An empty directory and two calls of `store` that have not begun. -/
def twoWriters : World := ⟨⟨∅, none, []⟩, [⟨packageNames, ∅, .entering⟩, ⟨packageNames, ∅, .entering⟩]⟩

theorem twoWriters_fresh : twoWriters.Fresh where
  taken := rfl
  writers w hw := by
    rcases List.mem_pair.1 hw with rfl | rfl <;> exact ⟨rfl, rfl⟩

theorem twoWriters_atomic : twoWriters.disk.Atomic := by
  intro names hnames
  cases hnames

def operations (writer count : Nat) : List Event := List.replicate count ⟨writer, .goes⟩

/-- The second writer passes its second look before the first one publishes, removes the shard
that the first one has published and crashes. -/
def overlapping : List Event := operations 0 11 ++ operations 1 11 ++ operations 0 9 ++ operations 1 2 ++ [⟨1, .crashes⟩]

end Tanpopo.FastGGUF.Publication
