import FrontDashboard.Library.ReadCommitted

/-! # Writes under the locks that guard them

A program that makes every write while it holds the locks that guard the write needs no
proof of its own: what is left to show is what a commit of guarded writes does to the
rows. A write of another kind may have gone before, as long as what others leave alone
keeps it good until the commit.
-/

namespace ReadCommitted

variable {Database Write Key Failure α β : Type}

/-- Started with some locks, the program makes every write under locks that guard it, and
answers under locks as `post` says. -/
def Program.Guarded (guard : Set Key → Write → Prop) (post : α → Set Key → Prop) :
    Program Database Write Key Failure α → Set Key → Prop
  | .answer value, held => post value held
  | .raise _, _ => True
  | .select next, held => ∀ rows, Guarded guard post (next rows) held
  | .execute statement next, held => ∀ rows,
      (∀ write ∈ statement rows, guard held write) ∧ Guarded guard post (next rows) held
  | .lock key next, held => Guarded guard post next (insert key held)
  | .commit next, _ => Guarded guard post next ∅

variable {guard : Set Key → Write → Prop}

namespace Program.Guarded

theorem bind {middle : α → Set Key → Prop} {post : β → Set Key → Prop}
    {program : Program Database Write Key Failure α}
    {rest : α → Program Database Write Key Failure β} {held : Set Key}
    (first : program.Guarded guard middle held)
    (continues : ∀ value held, middle value held → (rest value).Guarded guard post held) :
    (program >>= rest).Guarded guard post held := by
  change (program.bind rest).Guarded guard post held
  induction program generalizing held with
  | answer value => exact continues value held first
  | raise failure => trivial
  | select next ih => exact fun rows => ih rows (first rows)
  | execute statement next ih => exact fun rows => ⟨(first rows).1, ih rows (first rows).2⟩
  | lock key next ih => exact ih first
  | commit next ih => exact ih first

variable {post : β → Set Key → Prop} {held : Set Key}

theorem query {read : Database → α} {rest : α → Program Database Write Key Failure β}
    (continues : ∀ rows, (rest (read rows)).Guarded guard post held) :
    (Program.query read >>= rest).Guarded guard post held :=
  continues

theorem update {statement : Database → List Write}
    {rest : Unit → Program Database Write Key Failure β}
    (writes : ∀ rows, ∀ write ∈ statement rows, guard held write)
    (continues : (rest ()).Guarded guard post held) :
    (Program.update statement >>= rest).Guarded guard post held :=
  fun rows => ⟨writes rows, continues⟩

theorem updateReturning {statement : Database → List Write} {read : Database → α}
    {rest : α → Program Database Write Key Failure β}
    (writes : ∀ rows, ∀ write ∈ statement rows, guard held write)
    (continues : ∀ rows, (rest (read rows)).Guarded guard post held) :
    (Program.updateReturning statement read >>= rest).Guarded guard post held :=
  fun rows => ⟨writes rows, continues rows⟩

theorem acquire {key : Key} {rest : Unit → Program Database Write Key Failure β}
    (continues : (rest ()).Guarded guard post (insert key held)) :
    (Program.acquire key >>= rest).Guarded guard post held :=
  continues

theorem commitTransaction {rest : Unit → Program Database Write Key Failure β}
    (continues : (rest ()).Guarded guard post ∅) :
    (Program.commitTransaction >>= rest).Guarded guard post held :=
  continues

/-- A weaker postcondition. -/
theorem mono {weaker : β → Set Key → Prop}
    (implies : ∀ value held, post value held → weaker value held)
    {program : Program Database Write Key Failure β} (guarded : program.Guarded guard post held) :
    program.Guarded guard weaker held := by
  induction program generalizing held with
  | answer value => exact implies value held guarded
  | raise failure => trivial
  | select next ih => exact fun rows => ih rows (guarded rows)
  | execute statement next ih => exact fun rows => ⟨(guarded rows).1, ih rows (guarded rows).2⟩
  | lock key next ih => exact ih guarded
  | commit next ih => exact ih guarded

theorem acquireAll (keys : List Key) (held : Set Key) :
    (Program.acquireAll keys : Program Database Write Key Failure Unit).Guarded guard
      (fun _ holds => held ⊆ holds) held := by
  induction keys generalizing held with
  | nil => exact subset_rfl
  | cons key rest ih =>
      exact mono (fun _ _ grown => (Set.subset_insert key held).trans grown) (ih (insert key held))

end Program.Guarded

variable {perform : Database → Write → Database} {interference : Interference Database Key}
  {admits : Database → List Write → Prop}

/-- A program that writes nothing leaves nothing uncommitted. -/
theorem Ensures.of_reading {post : α → Set Key → Prop}
    {program : Program Database Write Key Failure α} {held : Set Key}
    (guarded : program.Guarded (fun _ _ => False) post held) (database : Database) :
    Ensures perform interference admits
      (fun value pending holds _ => pending = [] ∧ post value holds) program [] held database := by
  induction program generalizing held database with
  | answer value => exact ⟨rfl, guarded⟩
  | raise failure => trivial
  | select next ih => exact fun later _ _ => ih _ (guarded _) later
  | execute statement next ih =>
      intro later _ _
      obtain ⟨nothing, remaining⟩ := guarded (performAll perform later [])
      rw [List.eq_nil_iff_forall_not_mem.mpr nothing]
      exact ih _ remaining later
  | lock key next ih => exact fun later _ _ => ih guarded later
  | commit next ih =>
      exact fun later _ kept _ => ⟨kept, fun _ _ => interference.refl _ _, ih guarded later⟩

/-- Reading first, with nothing uncommitted yet. -/
theorem Ensures.after_reading {middle : α → Set Key → Prop}
    {post : β → List Write → Set Key → Database → Prop}
    {program : Program Database Write Key Failure α}
    {rest : α → Program Database Write Key Failure β} {held : Set Key} {database : Database}
    (guarded : program.Guarded (fun _ _ => False) middle held)
    (continues : ∀ value holds later, middle value holds →
      Ensures perform interference admits post (rest value) [] holds later) :
    Ensures perform interference admits post (program >>= rest) [] held database := by
  refine Ensures.bind (fun value pending holds later read => ?_) (of_reading guarded database)
  obtain ⟨rfl, reached⟩ := read
  exact continues value holds later reached

variable {post : α → Set Key → Prop}

/-- **Rule of guarded writes.** A program whose writes are guarded is ensured once every
commit of guarded writes keeps the invariant and what others rely on. -/
theorem Ensures.of_guarded
    (grows : ∀ key held write, guard held write → guard (insert key held) write)
    (commits : ∀ rows pending held, interference.invariant rows →
      (∀ write ∈ pending, guard held write) →
        interference.invariant (performAll perform rows pending) ∧
          ∀ others, Disjoint held others →
            interference.rely others rows (performAll perform rows pending))
    {program : Program Database Write Key Failure α} {held : Set Key}
    (guarded : program.Guarded guard post held) {pending : List Write}
    (begun : ∀ write ∈ pending, guard held write) (database : Database) :
    Ensures perform interference admits (fun _ _ _ _ => True) program pending held database := by
  induction program generalizing pending held database with
  | answer value => trivial
  | raise failure => trivial
  | select next ih => exact fun later _ _ => ih _ (guarded _) begun later
  | execute statement next ih =>
      intro later _ _
      exact ih _ (guarded _).2 (List.forall_mem_append.mpr ⟨begun, (guarded _).1⟩) later
  | lock key next ih =>
      exact fun later _ _ => ih guarded (fun write member => grows _ _ _ (begun write member)) later
  | commit next ih =>
      intro later _ kept _
      obtain ⟨invariant, leaves⟩ := commits later pending held kept begun
      exact ⟨invariant, leaves, ih guarded (List.forall_mem_nil _) _⟩

/-- **Rule of a first write.** A write of another kind is ensured along with guarded ones,
as long as others leave standing, under the locks held by then, what makes it good. -/
theorem Ensures.of_guarded_after {first : Write} {base : Set Key} {standing : Database → Prop}
    (grows : ∀ key held write, guard held write → guard (insert key held) write)
    (commits : ∀ rows pending held, interference.invariant rows →
      (∀ write ∈ pending, guard held write) →
        interference.invariant (performAll perform rows pending) ∧
          ∀ others, Disjoint held others →
            interference.rely others rows (performAll perform rows pending))
    (stands : ∀ held before after, base ⊆ held → interference.rely held before after →
      standing before → standing after)
    (commitsFirst : ∀ rows held, base ⊆ held → interference.invariant rows → standing rows →
      interference.invariant (perform rows first) ∧
        ∀ others, Disjoint held others → interference.rely others rows (perform rows first))
    {program : Program Database Write Key Failure α} {held : Set Key}
    (guarded : program.Guarded guard post held) (holds : base ⊆ held) {pending : List Write}
    (begun : ∀ write ∈ pending, guard held write) {database : Database}
    (good : standing database) :
    Ensures perform interference admits (fun _ _ _ _ => True) program (first :: pending) held
      database := by
  induction program generalizing pending held database with
  | answer value => trivial
  | raise failure => trivial
  | select next ih =>
      exact fun later relied _ => ih _ (guarded _) holds begun (stands _ _ _ holds relied good)
  | execute statement next ih =>
      intro later relied _
      exact ih _ (guarded _).2 holds (List.forall_mem_append.mpr ⟨begun, (guarded _).1⟩)
        (stands _ _ _ holds relied good)
  | lock key next ih =>
      intro later relied _
      exact ih guarded (holds.trans (Set.subset_insert key held))
        (fun write member => grows _ _ _ (begun write member)) (stands _ _ _ holds relied good)
  | commit next ih =>
      intro later relied kept _
      obtain ⟨invariant, leaves⟩ :=
        commitsFirst later held holds kept (stands _ _ _ holds relied good)
      obtain ⟨afterwards, further⟩ := commits (perform later first) pending held invariant begun
      refine ⟨afterwards, fun others apart => ?_, ?_⟩
      · exact interference.trans _ _ _ _ (leaves others apart) (further others apart)
      · have remaining : next.Guarded guard post ∅ := guarded
        exact of_guarded grows commits remaining (List.forall_mem_nil _) _

end ReadCommitted
