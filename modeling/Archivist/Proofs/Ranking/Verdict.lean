import Archivist.Proofs.Calendar.Date
import Archivist.Proofs.Order.Stable
import Archivist.Ranking.Verdict
import Mathlib.Data.List.Nodup
import Mathlib.Data.Nat.Digits.Defs

/-!
# Rankings Read from Words

A text is made of runs of digits and of what stands between them. `Runs cs rs` says that `rs` are
the runs of `cs`; every text has exactly one such list, the one that is read (`digitRuns_eq_iff`).
A run is a number if it consists of ASCII and full-width digits (`number?`), and a ranking is made
of the positions that the numbers name, in the order of their first mention (`read_eq`). Numbers
that are written down with something between them are its runs, so such a ranking is read back
(`read_written`).
-/

namespace Archivist.Ranking

variable {c : Char} {cs ds gap run : List Char} {rs runs : List (List Char)} {candidates : ℕ}

/-! ### Digits -/

/-- One of the ten full-width digits. -/
def isWideDigit (c : Char) : Bool := decide ('０' ≤ c ∧ c ≤ '９')

/-- A digit that numbers are written with. -/
def isPlainDigit (c : Char) : Bool := Text.isAsciiDigit c || isWideDigit c

/-- The value of such a digit. -/
def plainValue (c : Char) : ℕ :=
  if Text.isAsciiDigit c then c.toNat - '0'.toNat else c.toNat - '０'.toNat

/-- The ten characters from a zero on are digits. -/
theorem isDigit_of_zero {z : ℕ} (hz : z ∈ Text.digitZeros) (hle : z ≤ c.toNat)
    (hlt : c.toNat < z + 10) : Text.isDigit c = true := by
  rw [Text.isDigit, Text.digitValue?, Option.isSome_map, List.find?_isSome]
  exact ⟨z, hz, decide_eq_true ⟨hle, hlt⟩⟩

/-- The digits of ASCII by their places. -/
theorem isAsciiDigit_iff : Text.isAsciiDigit c = true ↔ 48 ≤ c.toNat ∧ c.toNat ≤ 57 :=
  decide_eq_true_iff

/-- The full-width digits by their places. -/
theorem isWideDigit_iff : isWideDigit c = true ↔ 65296 ≤ c.toNat ∧ c.toNat ≤ 65305 :=
  decide_eq_true_iff

/-- The digits that numbers are written with are digits. -/
theorem isDigit_of_isPlainDigit (h : isPlainDigit c = true) : Text.isDigit c = true := by
  rw [isPlainDigit, Bool.or_eq_true, isAsciiDigit_iff, isWideDigit_iff] at h
  rcases h with h | h
  · exact isDigit_of_zero (z := 48) (by decide) h.1 (by omega)
  · exact isDigit_of_zero (z := 65296) (by decide) h.1 (by omega)

/-- Anything but a full-width digit is narrow already. -/
theorem narrowDigit_of_not_wide (h : isWideDigit c = false) : narrowDigit c = c :=
  if_neg (of_decide_eq_false h)

/-- A full-width digit becomes the ASCII digit of the same value. -/
theorem toNat_narrowDigit_of_wide (h : isWideDigit c = true) :
    (narrowDigit c).toNat = c.toNat - 65296 + 48 := by
  have hc := isWideDigit_iff.1 h
  rw [narrowDigit, if_pos (of_decide_eq_true h)]
  have hvalid : Nat.isValidChar (c.toNat - 65296 + 48) := .inl (by omega)
  exact congrArg Char.toNat (dif_pos hvalid)

/-- Narrowed, exactly the digits that numbers are written with are digits of ASCII. -/
theorem isAsciiDigit_narrowDigit (c : Char) :
    Text.isAsciiDigit (narrowDigit c) = isPlainDigit c := by
  cases hwide : isWideDigit c with
  | false => rw [narrowDigit_of_not_wide hwide, isPlainDigit, hwide, Bool.or_false]
  | true =>
      have hc := isWideDigit_iff.1 hwide
      rw [isPlainDigit, hwide, Bool.or_true, isAsciiDigit_iff, toNat_narrowDigit_of_wide hwide]
      omega

/-- Narrowing makes no digit and loses none. -/
theorem isDigit_narrowDigit (c : Char) : Text.isDigit (narrowDigit c) = Text.isDigit c := by
  cases hwide : isWideDigit c with
  | false => rw [narrowDigit_of_not_wide hwide]
  | true =>
      have hplain : isPlainDigit c = true := by rw [isPlainDigit, hwide, Bool.or_true]
      have hascii : isPlainDigit (narrowDigit c) = true := by
        rw [isPlainDigit, isAsciiDigit_narrowDigit, hplain, Bool.true_or]
      rw [isDigit_of_isPlainDigit hplain, isDigit_of_isPlainDigit hascii]

/-- Narrowing keeps the value of a digit. -/
theorem asciiDigitValue_narrowDigit (h : isPlainDigit c = true) :
    Text.asciiDigitValue (narrowDigit c) = plainValue c := by
  rw [isPlainDigit, Bool.or_eq_true] at h
  cases hwide : isWideDigit c with
  | false =>
      have hascii : Text.isAsciiDigit c = true := h.resolve_right (by simp [hwide])
      rw [narrowDigit_of_not_wide hwide, plainValue, if_pos hascii, Text.asciiDigitValue]
  | true =>
      have hc := isWideDigit_iff.1 hwide
      have hascii : ¬ Text.isAsciiDigit c = true := by
        rw [isAsciiDigit_iff]
        omega
      rw [Text.asciiDigitValue, toNat_narrowDigit_of_wide hwide, plainValue, if_neg hascii]
      exact Nat.add_sub_cancel _ _

/-! ### Runs of digits -/

/-- The runs of digits in a text: a text without digits has none, and in any other something without
digits, which may be empty, comes first, then a run as long as it can be. -/
inductive Runs : List Char → List (List Char) → Prop where
  | none {gap : List Char} (hgap : ∀ c ∈ gap, Text.isDigit c = false) : Runs gap []
  | run {gap run cs : List Char} {rs : List (List Char)}
      (hgap : ∀ c ∈ gap, Text.isDigit c = false) (hne : run ≠ [])
      (hrun : ∀ c ∈ run, Text.isDigit c = true) (hend : ∀ c ∈ cs.head?, Text.isDigit c = false)
      (h : Runs cs rs) : Runs (gap ++ (run ++ cs)) (run :: rs)

/-- What is between runs begins none. -/
theorem digitRuns_gap (hgap : ∀ c ∈ gap, Text.isDigit c = false) (cs : List Char) :
    digitRuns [] (gap ++ cs) = digitRuns [] cs := by
  induction gap with
  | nil => rfl
  | cons c gap ih =>
      rw [List.forall_mem_cons] at hgap
      rw [List.cons_append, digitRuns, if_neg (by simp [hgap.1]), if_pos rfl, ih hgap.2]

/-- A run that is being read goes on. -/
theorem digitRuns_run (hrun : ∀ c ∈ run, Text.isDigit c = true) (ds cs : List Char) :
    digitRuns ds (run ++ cs) = digitRuns (run.reverse ++ ds) cs := by
  induction run generalizing ds with
  | nil => rfl
  | cons c run ih =>
      rw [List.forall_mem_cons] at hrun
      rw [List.cons_append, digitRuns, if_pos hrun.1, ih hrun.2, List.reverse_cons,
        List.append_assoc, List.singleton_append]

/-- A run that is being read ends where no digit follows. -/
theorem digitRuns_end (hds : ds ≠ []) (hend : ∀ c ∈ cs.head?, Text.isDigit c = false) :
    digitRuns ds cs = ds.reverse :: digitRuns [] cs := by
  cases cs with
  | nil => rw [digitRuns, if_neg hds, digitRuns, if_pos rfl]
  | cons c cs =>
      have hc : ¬ Text.isDigit c = true := by simp [hend c rfl]
      rw [digitRuns, if_neg hc, if_neg hds, digitRuns, if_neg hc, if_pos rfl]

/-- The runs of a text are those that are read. -/
theorem Runs.digitRuns_eq (h : Runs cs rs) : digitRuns [] cs = rs := by
  induction h with
  | none hgap => simpa [digitRuns] using digitRuns_gap hgap []
  | @run gap run cs rs hgap hne hrun hend _ ih =>
      have hreverse : run.reverse ≠ [] := mt List.reverse_eq_nil_iff.1 hne
      rw [digitRuns_gap hgap, digitRuns_run hrun, List.append_nil, digitRuns_end hreverse hend,
        List.reverse_reverse, ih]

/-- One more character in front: it is between runs, a run of its own or part of the first run. -/
theorem Runs.exists_cons (h : Runs cs rs) (c : Char) : ∃ rs', Runs (c :: cs) rs' := by
  cases hc : Text.isDigit c with
  | false =>
      cases h with
      | none hgap => exact ⟨[], .none (List.forall_mem_cons.2 ⟨hc, hgap⟩)⟩
      | run hgap hne hrun hend h =>
          exact ⟨_, .run (List.forall_mem_cons.2 ⟨hc, hgap⟩) hne hrun hend h⟩
  | true =>
      have halone : ∀ d ∈ [c], Text.isDigit d = true := List.forall_mem_singleton.2 hc
      cases h with
      | none hgap =>
          refine ⟨_, @Runs.run [] _ _ _ (by simp) (List.cons_ne_nil c []) halone (fun d hd => ?_)
            (.none hgap)⟩
          exact hgap d (List.mem_of_mem_head? hd)
      | @run gap run cs rs hgap hne hrun hend h =>
          cases gap with
          | nil =>
              exact ⟨_, @Runs.run [] _ _ _ (by simp) (List.cons_ne_nil c run)
                (List.forall_mem_cons.2 ⟨hc, hrun⟩) hend h⟩
          | cons d gap =>
              exact ⟨_, @Runs.run [] _ _ _ (by simp) (List.cons_ne_nil c []) halone
                (fun e he => Option.some.inj he ▸ hgap d List.mem_cons_self)
                (.run hgap hne hrun hend h)⟩

/-- Every text has runs, perhaps none. -/
theorem exists_runs (cs : List Char) : ∃ rs, Runs cs rs := by
  induction cs with
  | nil => exact ⟨[], .none (by simp)⟩
  | cons c cs ih =>
      obtain ⟨rs, h⟩ := ih
      exact h.exists_cons c

/-- **The runs that are read are the runs of the text.** -/
theorem digitRuns_eq_iff : digitRuns [] cs = rs ↔ Runs cs rs := by
  refine ⟨fun h => ?_, Runs.digitRuns_eq⟩
  obtain ⟨rs', h'⟩ := exists_runs cs
  rw [← h, h'.digitRuns_eq]
  exact h'

/-- Whether digits are full-width makes no difference to where the runs are. -/
theorem Runs.map_narrowDigit (h : Runs cs rs) :
    Runs (cs.map narrowDigit) (rs.map (List.map narrowDigit)) := by
  have hforall : ∀ {ds : List Char} {b : Bool}, (∀ c ∈ ds, Text.isDigit c = b) →
      ∀ c ∈ ds.map narrowDigit, Text.isDigit c = b := by
    intro ds b hds
    rw [List.forall_mem_map]
    exact fun c hc => (isDigit_narrowDigit c).trans (hds c hc)
  induction h with
  | none hgap => exact .none (hforall hgap)
  | run hgap hne hrun hend _ ih =>
      rw [List.map_append, List.map_append]
      refine .run (hforall hgap) (mt List.map_eq_nil_iff.1 hne) (hforall hrun) (fun c hc => ?_) ih
      rw [List.head?_map, Option.mem_map] at hc
      obtain ⟨d, hd, rfl⟩ := hc
      exact (isDigit_narrowDigit d).trans (hend d hd)

/-! ### Numbers -/

/-- The number that a run of digits is, unless one of them is neither ASCII nor full-width. -/
def number? (run : List Char) : Option ℕ :=
  if run.all isPlainDigit then some (Nat.ofDigits 10 (run.reverse.map plainValue)) else none

/-- Digits are read as the library reads them, the last one first. -/
theorem natOfDigits_eq_ofDigits (cs : List Char) :
    Text.natOfDigits cs = Nat.ofDigits 10 (cs.reverse.map Text.asciiDigitValue) := by
  rw [Nat.ofDigits_eq_foldr, List.foldr_map, List.foldr_reverse, Text.natOfDigits]
  exact congrArg (fun f => cs.foldl f 0) (by funext n c; simp [Nat.add_comm])

/-- A run is read as the number that it is. -/
theorem readNat_narrow (hne : run ≠ []) :
    Text.readNat (run.map narrowDigit) = number? run := by
  have hall : (run.map narrowDigit).all Text.isAsciiDigit = run.all isPlainDigit := by
    rw [List.all_map]
    exact congrArg run.all (funext isAsciiDigit_narrowDigit)
  have hne' : run.map narrowDigit ≠ [] := mt List.map_eq_nil_iff.1 hne
  rw [Text.readNat, number?, hall]
  by_cases hplain : run.all isPlainDigit = true
  · rw [if_pos ⟨hne', hplain⟩, if_pos hplain, natOfDigits_eq_ofDigits, ← List.map_reverse,
      List.map_map]
    refine congrArg (fun vs => some (Nat.ofDigits 10 vs)) (List.map_congr_left fun c hc => ?_)
    exact asciiDigitValue_narrowDigit (List.all_eq_true.1 hplain c (List.mem_reverse.1 hc))
  · rw [if_neg fun h => hplain h.2, if_neg hplain]

/-- A run is not empty. -/
theorem Runs.ne_nil (h : Runs cs rs) (hrun : run ∈ rs) : run ≠ [] := by
  induction h with
  | none => cases hrun
  | run _ hne _ _ _ ih =>
      rcases List.mem_cons.1 hrun with rfl | hrun
      · exact hne
      · exact ih hrun

/-! ### Positions -/

/-- The positions, counted from 0, that numbers name, each as often as it is named. -/
def positions (candidates : ℕ) (ns : List ℕ) : List ℕ :=
  (ns.filter fun n => 1 ≤ n ∧ n ≤ candidates).map (· - 1)

/-- Positions are taken at their first mention. -/
theorem distinctPositions_eq (candidates : ℕ) (seen ns : List ℕ) :
    distinctPositions candidates seen ns = firstOfEach id seen (positions candidates ns) := by
  induction ns generalizing seen with
  | nil => rfl
  | cons n ns ih =>
      rw [distinctPositions, positions]
      by_cases hn : 1 ≤ n ∧ n ≤ candidates
      · rw [List.filter_cons_of_pos (by simpa using hn), List.map_cons, firstOfEach, id]
        by_cases hseen : n - 1 ∈ seen
        · rw [if_neg (fun h => h.2.2 hseen), if_pos hseen, ih, positions]
        · rw [if_pos ⟨hn.1, hn.2, hseen⟩, if_neg hseen, ih, positions]
      · rw [List.filter_cons_of_neg (by simpa using hn), if_neg (fun h => hn ⟨h.1, h.2.1⟩), ih,
          positions]

/-- **A ranking has the positions that a text names, in the order of their first mention.** -/
theorem read_eq {output : String} (h : Runs output.toList runs) (candidates : ℕ) :
    read output candidates = firstOfEach id [] (positions candidates (runs.filterMap number?)) := by
  have hnumbers : (runs.map (List.map narrowDigit)).filterMap Text.readNat =
      runs.filterMap number? := by
    rw [List.filterMap_map]
    exact List.filterMap_congr fun run hrun => readNat_narrow (h.ne_nil hrun)
  rw [read, h.map_narrowDigit.digitRuns_eq, hnumbers, distinctPositions_eq]

/-- No position is read twice. -/
theorem nodup_read (output : String) (candidates : ℕ) : (read output candidates).Nodup := by
  rw [read, distinctPositions_eq]
  simpa using nodup_map_firstOfEach id [] _

/-- A position that is read is that of a candidate. -/
theorem lt_of_mem_read {output : String} {i : ℕ} (h : i ∈ read output candidates) :
    i < candidates := by
  rw [read, distinctPositions_eq] at h
  obtain ⟨n, hn, rfl⟩ := List.mem_map.1 (mem_of_mem_firstOfEach h)
  have hn := of_decide_eq_true (List.mem_filter.1 hn).2
  omega

/-! ### Rankings that are written down -/

/-- A number in ASCII or full-width digits, perhaps with zeros in front. -/
def Spells (run : List Char) (n : ℕ) : Prop := run ≠ [] ∧ number? run = some n

/-- Numbers, each with what is written behind it. -/
def written (parts : List (List Char × List Char)) : List Char := parts.flatMap fun p => p.1 ++ p.2

/-- Numbers with something between them that has no digits are the runs of the text. -/
theorem runs_written {front : List Char} {parts : List (List Char × List Char)}
    (hfront : ∀ c ∈ front, Text.isDigit c = false)
    (hruns : ∀ p ∈ parts, p.1 ≠ [] ∧ ∀ c ∈ p.1, Text.isDigit c = true)
    (hgaps : ∀ p ∈ parts, ∀ c ∈ p.2, Text.isDigit c = false)
    (hbetween : ∀ p ∈ parts.dropLast, p.2 ≠ []) :
    Runs (front ++ written parts) (parts.map Prod.fst) := by
  induction parts generalizing front with
  | nil => exact .none (by simpa [written] using hfront)
  | cons p parts ih =>
      obtain ⟨run, gap⟩ := p
      rw [List.forall_mem_cons] at hruns hgaps
      have htail : ∀ p ∈ parts.dropLast, p.2 ≠ [] := by
        intro p hp
        cases parts with
        | nil => cases hp
        | cons q parts => exact hbetween p (List.mem_cons_of_mem _ hp)
      have hend : ∀ c ∈ (gap ++ written parts).head?, Text.isDigit c = false := by
        intro c hc
        cases gap with
        | cons d gap => exact hgaps.1 c (List.mem_of_mem_head? hc)
        | nil =>
            cases parts with
            | nil => cases hc
            | cons q parts => exact absurd rfl (hbetween _ List.mem_cons_self)
      have hrest : Runs (gap ++ written parts) (parts.map Prod.fst) :=
        ih hgaps.1 hruns.2 hgaps.2 htail
      have htext : front ++ written ((run, gap) :: parts) =
          front ++ (run ++ (gap ++ written parts)) := by
        rw [written, List.flatMap_cons, List.append_assoc, written]
      rw [htext]
      exact .run hfront hruns.1.1 hruns.1.2 hend hrest

/-- What spells a number consists of digits. -/
theorem Spells.isDigit {n : ℕ} (h : Spells run n) (hc : c ∈ run) : Text.isDigit c = true := by
  have hnumber := h.2
  rw [number?] at hnumber
  split at hnumber
  · rename_i hplain
    exact isDigit_of_isPlainDigit (List.all_eq_true.1 hplain c hc)
  · cases hnumber

/-- Numbers that are written are read. -/
theorem numbers_of_spells {parts : List (List Char × List Char)} {ns : List ℕ}
    (h : List.Forall₂ (fun p n => Spells p.1 n) parts ns) :
    (∀ p ∈ parts, p.1 ≠ [] ∧ ∀ c ∈ p.1, Text.isDigit c = true) ∧
      (parts.map Prod.fst).filterMap number? = ns := by
  induction h with
  | nil => exact ⟨by simp, rfl⟩
  | cons hn _ ih =>
      rw [List.forall_mem_cons, List.map_cons, List.filterMap_cons, hn.2, ih.2]
      exact ⟨⟨⟨hn.1, fun c hc => hn.isDigit hc⟩, ih.1⟩, rfl⟩

/-- **Positions that are written down are read back**, whatever stands between them. -/
theorem read_written {front : List Char} {parts : List (List Char × List Char)} {ns : List ℕ}
    (hfront : ∀ c ∈ front, Text.isDigit c = false)
    (hspell : List.Forall₂ (fun p n => Spells p.1 n) parts ns)
    (hgaps : ∀ p ∈ parts, ∀ c ∈ p.2, Text.isDigit c = false)
    (hbetween : ∀ p ∈ parts.dropLast, p.2 ≠ [])
    (hnodup : ns.Nodup) (hrange : ∀ n ∈ ns, 1 ≤ n ∧ n ≤ candidates) :
    read (String.ofList (front ++ written parts)) candidates = ns.map (· - 1) := by
  obtain ⟨hruns, hnumbers⟩ := numbers_of_spells hspell
  have htext : Runs (String.ofList (front ++ written parts)).toList (parts.map Prod.fst) := by
    rw [String.toList_ofList]
    exact runs_written hfront hruns hgaps hbetween
  have hpositions : positions candidates ns = ns.map (· - 1) := by
    rw [positions, List.filter_eq_self.2 fun n hn => decide_eq_true (hrange n hn)]
  rw [read_eq htext, hnumbers, hpositions]
  refine firstOfEach_eq_self ?_ fun _ _ => List.not_mem_nil
  rw [List.map_id]
  -- Subtracting 1 keeps numbers apart that are not 0.
  refine List.Nodup.map_on (fun a ha b hb heq => ?_) hnodup
  have ha := hrange a ha
  have hb := hrange b hb
  omega

end Archivist.Ranking
