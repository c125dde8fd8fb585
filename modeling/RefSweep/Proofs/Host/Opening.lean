import RefSweep.Proofs.Git.Names
import RefSweep.Proofs.Host.Database
import RefSweep.Proofs.Opening

/-!
# Repositories that runs open

A run on a host opens the store in a file or a git repository. Either way the names that it is then
told can be read, and closing does not fail.
-/

namespace RefSweep.Host

variable {config : Config} {root : Path} {rid peer : Text} {h t : Host} {o : Opening Host Handle}

/-- What a run has opened is a store in a file, which changes nothing, or a git repository. -/
theorem opened_cases
    (hopen : (openNamespace (pick config) root rid peer h).outcome = .ok o) :
    o.storage = sqliteStorage ∧ (openNamespace (pick config) root rid peer h).after = h ∧
        (∃ d, Stores o.handle h d) ∨
      o.storage = gitStorage none ∧ (openNamespace (pick config) root rid peer h).after =
        (openGit root o.id h).state ∧ (openGit root o.id h).result = .ok o.handle := by
  obtain ⟨-, -, hpick, hopened, hafter⟩ := openNamespace_ok hopen
  obtain ⟨hsame, hkind⟩ := pick_storageOf config o.id h
  obtain ⟨kind, hkind⟩ := hkind o.storage hpick
  rw [hsame] at hopened hafter
  rw [hkind] at hopened hafter ⊢
  -- what was picked is the storage of one of the two kinds
  cases kind with
  | sqlite =>
    obtain ⟨hstate, d, hd, -⟩ := openStore_ok hopened
    exact .inl ⟨rfl, hafter.trans hstate, d, hd⟩
  | git => exact .inr ⟨rfl, hafter, hopened⟩

/-- Every name that an opened storage lists is parsed back from its text, in a database as in git.
-/
theorem parse_of_mem_opened {r : Reference}
    (hopen : (openNamespace (pick config) root rid peer h).outcome = .ok o)
    (hr : r ∈ (o.storage.references o.handle t).1.references) :
    RefName.parse r.name.text = .ok r.name := by
  obtain ⟨hstorage, -⟩ | ⟨hstorage, -⟩ := opened_cases hopen
  · rw [hstorage] at hr
    exact parse_of_mem_storedReferences hr
  · rw [hstorage] at hr
    exact parse_of_mem_gitReferences hr

/-- Closing what was opened does nothing on the host and says nothing. -/
theorem close_opened (hopen : (openNamespace (pick config) root rid peer h).outcome = .ok o) :
    o.storage.close o.handle t = ⟨.ok (), t, []⟩ := by
  obtain ⟨hstorage, -, d, hd⟩ | ⟨hstorage, -⟩ := opened_cases hopen
  · rw [hstorage]
    dsimp only [sqliteStorage]
    rw [hd.kind]
  · rw [hstorage]
    rfl

theorem closes_opened (hopen : (openNamespace (pick config) root rid peer h).outcome = .ok o)
    (t : Host) : (o.storage.close o.handle t).result = .ok () := by rw [close_opened hopen]

end RefSweep.Host
