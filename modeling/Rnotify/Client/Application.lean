import Rnotify.Client.Table
import Rnotify.Library.System

/-! The application (`application.c`) up to its listener.

For each of `subscription_count` subscriptions the loop draws a directory until it
draws one that is not subscribed. A directory's name ends in one of four digits, so
four subscriptions can be made, whatever the draws; a fifth is looked for without
end (`finishes_iff`). -/
namespace Rnotify.Client
open Library

/-- A value of `rand()`, `RAND_MAX` being 2^31 - 1. -/
abbrev Rand := Fin (2 ^ 31)

def baseDir : CString := literal "/localtmp/dump/"

/-- The directory of a number: the number is appended to the base, and what exceeds one byte of it is
cut off. -/
def directory (number : Nat) : CString :=
  let path : Buffer := Buffer.strcat ⟨baseDir.length + 2, baseDir.memory⟩ (decimal number)
  cstr (path.data.set (baseDir.length + 1) 0)

def fileName (rand : Rand) : CString := directory (rand.val % 4 + 1)

/-- The variables of `main`. -/
structure Application where
  i : Nat
  rn : Rnot
  subscribedFiles : Table CString
  /-- The paths that `rsubscribe` was called with. -/
  calls : List CString

/-- One turn of the inner loop, for a draw; there is none once `i` has reached the count, and the listener
starts. The registrar's answers to the paths are given. -/
def draw (answer : CString → Response) (subscriptionCount : Nat) (s : Application) (rand : Rand) :
    Option Application :=
  if s.i < subscriptionCount then
    match s.subscribedFiles.lookup (fileName rand) with
    | some _ => some s
    | none => (rsubscribe s.rn (answer (fileName rand)).wire).map fun rn =>
      { i := s.i + 1
        rn := rn
        subscribedFiles := s.subscribedFiles.insert (fileName rand) (fileName rand)
        calls := s.calls ++ [fileName rand] }
  else none

def application (answer : CString → Response) (subscriptionCount : Nat) : System Application Rand where
  initial := ⟨0, rnotifyInit, ∅, []⟩
  step := draw answer subscriptionCount

/-! ### The directories -/

def directories : List CString := [directory 1, directory 2, directory 3, directory 4]

theorem directories_nodup : directories.Nodup := by decide

theorem fileName_mem (rand : Rand) : fileName rand ∈ directories := by
  have hall : ∀ k : Fin 4, directory (k.val + 1) ∈ directories := by decide
  exact hall ⟨rand.val % 4, Nat.mod_lt _ (by decide)⟩

theorem exists_rand {path : CString} (h : path ∈ directories) : ∃ rand, fileName rand = path := by
  have hall : ∀ path ∈ directories, path ∈ [fileName 0, fileName 1, fileName 2, fileName 3] := by decide
  have hmem := hall path h
  simp only [List.mem_cons, List.not_mem_nil, or_false] at hmem
  obtain h | h | h | h := hmem <;> exact ⟨_, h.symm⟩

/-! ### The loop -/

variable {answer : CString → Response} {n : Nat} {s t : Application}

/-- The calls so far: so many, of directories that are all different, each with its answer handled. -/
structure Reached (answer : CString → Response) (s : Application) : Prop where
  i : s.i = s.calls.length
  nodup : s.calls.Nodup
  subset : ∀ path ∈ s.calls, path ∈ directories
  files : ∀ path, path ∈ Table.names s.subscribedFiles ↔ path ∈ s.calls
  rn : s.rn = table (s.calls.map answer)

theorem reached_initial : Reached answer (application answer n).initial :=
  ⟨rfl, List.nodup_nil, nofun, by simp [application, Table.names], rfl⟩

/-- The variables when a path has been subscribed. -/
def Application.add (answer : CString → Response) (s : Application) (path : CString) : Application :=
  ⟨s.i + 1, subscribeAll s.rn (answer path), s.subscribedFiles.insert path path, s.calls ++ [path]⟩

/-- A turn leaves everything as it is or subscribes a directory that was not subscribed. -/
theorem draw_cases {rand : Rand} (h : draw answer n s rand = some t) :
    s.i < n ∧ (t = s ∨ s.subscribedFiles.lookup (fileName rand) = none ∧ t = s.add answer (fileName rand)) := by
  unfold draw at h
  split at h
  · next hi =>
    refine ⟨hi, ?_⟩
    split at h
    · exact Or.inl (Option.some.inj h).symm
    · next hnew =>
      rw [rsubscribe_response, Option.map_some, Option.some.injEq] at h
      exact Or.inr ⟨hnew, h.symm⟩
  · cases h

theorem not_mem_calls (hs : Reached answer s) {path : CString} :
    s.subscribedFiles.lookup path = none ↔ path ∉ s.calls := by
  rw [← hs.files, Table.mem_names, ← Option.isSome_iff_exists, Option.not_isSome_iff_eq_none]

theorem reached_draw {rand : Rand} (hs : Reached answer s) (h : draw answer n s rand = some t) :
    Reached answer t := by
  obtain ⟨_, rfl | ⟨hnew, rfl⟩⟩ := draw_cases h
  · exact hs
  · have hfresh := (not_mem_calls hs).mp hnew
    refine ⟨?_, ?_, ?_, ?_, ?_⟩
    · show s.i + 1 = (s.calls ++ [fileName rand]).length
      rw [hs.i, List.length_append, List.length_singleton]
    · show (s.calls ++ [fileName rand]).Nodup
      rw [← List.concat_eq_append]
      exact hs.nodup.concat hfresh
    · intro path hpath
      rcases List.mem_append.mp hpath with hold | hnew
      · exact hs.subset path hold
      · rw [List.mem_singleton.mp hnew]
        exact fileName_mem rand
    · intro path
      show path ∈ Table.names (s.subscribedFiles.insert (fileName rand) (fileName rand)) ↔ _ ∈ s.calls ++ [_]
      rw [Table.names_insert, Finset.mem_insert, hs.files, List.mem_append, List.mem_singleton, or_comm]
    · show subscribeAll s.rn (answer (fileName rand)) = table ((s.calls ++ [fileName rand]).map answer)
      rw [List.map_append, List.map_singleton, table_concat, hs.rn]

theorem reached_run {rands : List Rand}
    (hr : (application answer n).exec (application answer n).initial rands = some s) :
    Reached answer s :=
  (application answer n).invariant (Reached answer) (fun _ _ _ hs h => reached_draw hs h) rands _ s
    reached_initial hr

/-- Four subscriptions at most can be made. -/
theorem Reached.length_le (hs : Reached answer s) : s.calls.length ≤ 4 :=
  (List.subperm_of_subset hs.nodup hs.subset).length_le

/-- With fewer than four made, a directory is left. -/
theorem exists_fresh {calls : List CString} (h : calls.length < 4) : ∃ rand, fileName rand ∉ calls := by
  by_contra hall
  push Not at hall
  have hsub : directories ⊆ calls := by
    intro path hpath
    obtain ⟨rand, rfl⟩ := exists_rand hpath
    exact hall rand
  have hle : 4 ≤ calls.length := (List.subperm_of_subset directories_nodup hsub).length_le
  omega

/-- A draw of a directory that is not subscribed ends the inner loop. -/
theorem draw_fresh {rand : Rand} (hs : Reached answer s) (hi : s.i < n) (hfresh : fileName rand ∉ s.calls) :
    ∃ t, draw answer n s rand = some t ∧ t.i = s.i + 1 ∧ t.calls = s.calls ++ [fileName rand] := by
  have hnew := (not_mem_calls hs).mpr hfresh
  refine ⟨s.add answer (fileName rand), ?_, rfl, rfl⟩
  simp only [draw, if_pos hi, hnew, rsubscribe_response, Option.map_some, Application.add]

/-- From every state with subscriptions left to make some draw makes one of a directory that was not
subscribed; and some draws lead to the listener, with so many calls of `rsubscribe`, on paths that all
differ. -/
structure Finishes (answer : CString → Response) (n : Nat) : Prop where
  progress : ∀ rands s, (application answer n).exec (application answer n).initial rands = some s → s.i < n →
    ∃ rand t, draw answer n s rand = some t ∧ t.i = s.i + 1 ∧
      fileName rand ∉ s.calls ∧ t.calls = s.calls ++ [fileName rand]
  listens : ∃ rands s, (application answer n).exec (application answer n).initial rands = some s ∧
    s.calls.length = n ∧ s.calls.Nodup ∧ s.rn = table (s.calls.map answer) ∧ ∀ rand, draw answer n s rand = none

theorem progress (hn : n ≤ 4) (hs : Reached answer s) (hi : s.i < n) :
    ∃ rand t, draw answer n s rand = some t ∧ t.i = s.i + 1 ∧
      fileName rand ∉ s.calls ∧ t.calls = s.calls ++ [fileName rand] := by
  have hfewer : s.calls.length < 4 := by
    rw [← hs.i]
    omega
  obtain ⟨rand, hfresh⟩ := exists_fresh hfewer
  obtain ⟨t, ht, hti, hcalls⟩ := draw_fresh hs hi hfresh
  exact ⟨rand, t, ht, hti, hfresh, hcalls⟩

/-- One draw for each subscription. -/
theorem exists_draws (answer : CString → Response) (hn : n ≤ 4) (k : Nat) (hk : k ≤ n) :
    ∃ rands s, (application answer n).exec (application answer n).initial rands = some s ∧ s.i = k := by
  induction k with
  | zero => exact ⟨[], _, rfl, rfl⟩
  | succ k ih =>
    obtain ⟨rands, s, hs, hi⟩ := ih (by omega)
    obtain ⟨rand, t, ht, hti, _⟩ := progress hn (reached_run hs) (by omega)
    exact ⟨rands ++ [rand], t, (application answer n).exec_concat_some hs ht, by omega⟩

/-- **The loop can finish** exactly when at most four subscriptions are asked for. -/
theorem finishes_iff (answer : CString → Response) (n : Nat) : Finishes answer n ↔ n ≤ 4 := by
  constructor
  · rintro ⟨_, rands, s, hs, hlength, _⟩
    rw [← hlength]
    exact (reached_run hs).length_le
  · intro hn
    refine ⟨fun rands s hs hi => progress hn (reached_run hs) hi, ?_⟩
    obtain ⟨rands, s, hs, hi⟩ := exists_draws answer hn n le_rfl
    have hreached := reached_run hs
    refine ⟨rands, s, hs, hreached.i.symm.trans hi, hreached.nodup, hreached.rn, fun rand => ?_⟩
    rw [draw, if_neg (by omega)]

/-- Asked for a fifth directory, the application never comes to its listener. -/
theorem five_never_finish : ¬ Finishes (fun _ => ⟨[registerOk.bytes, (decimal 1).bytes], le_rfl⟩) 5 := by
  rintro ⟨_, rands, s, hs, hlength, _⟩
  have hle := (reached_run hs).length_le
  omega

end Rnotify.Client
