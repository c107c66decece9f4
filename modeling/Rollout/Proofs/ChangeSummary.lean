import Rollout.Proofs.Staffing
import Rollout.Text.Blank

/-!
# What is told about the groups that change

A pass announces the groups that lose their machines and those that get one, a line for each. The
names of groups are any texts. Quotes and blanks in them do no harm, since the count ends at the
first blank and the last quote ends the name; but a line feed within a name is not told from the
end of a line. So the lines say what the difference says exactly where no name holds a line feed.
-/

namespace Rollout

namespace Text

/-- The text does not go over the end of a line. -/
def OneLine (s : String) : Prop := '\n' ∉ s.toList

instance : DecidablePred OneLine := fun _ => inferInstanceAs (Decidable (¬ _))

variable {s t : String}

theorem oneLine_append : OneLine (s ++ t) ↔ OneLine s ∧ OneLine t := by
  simp only [OneLine, String.toList_append, List.mem_append, not_or]

theorem getLast?_append (nonempty : t.toList ≠ []) :
    (s ++ t).toList.getLast? = t.toList.getLast? := by
  rw [String.toList_append, List.getLast?_append_of_ne_nil _ nonempty]

theorem cutLines_cons {c : Char} (inner : c ≠ '\n') (line rest : List Char) :
    cutLines line (c :: rest) = cutLines (c :: line) rest := by
  rw [cutLines]
  exact inner

/-- What ends with a line feed is cut apart from what follows it. -/
theorem cutLines_append (line row rest : List Char) :
    cutLines line (row ++ '\n' :: rest) = cutLines line (row ++ ['\n']) ++ cutLines [] rest := by
  induction row generalizing line with
  | nil => simp [cutLines]
  | cons c row ih =>
    by_cases feed : c = '\n'
    · subst feed
      simp only [List.cons_append, cutLines, ih []]
    · rw [List.cons_append, List.cons_append, cutLines_cons feed, cutLines_cons feed, ih]

theorem cutLines_inner {row : List Char} (inner : '\n' ∉ row) (line : List Char) :
    cutLines line (row ++ ['\n']) = [(dropReturn (row.reverse ++ line)).reverse] := by
  induction row generalizing line with
  | nil => simp [cutLines]
  | cons c row ih =>
    simp only [List.mem_cons, not_or] at inner
    rw [List.cons_append, cutLines_cons (Ne.symm inner.1), ih inner.2, List.reverse_cons,
      List.append_assoc]
    rfl

/-- There are as many lines as line feeds. -/
theorem length_cutLines (line row : List Char) :
    (cutLines line (row ++ ['\n'])).length = row.count '\n' + 1 := by
  induction row generalizing line with
  | nil => simp [cutLines]
  | cons c row ih =>
    by_cases feed : c = '\n'
    · subst feed
      simp only [List.cons_append, cutLines, List.length_cons, ih, List.count_cons_self]
    · rw [List.cons_append, cutLines_cons feed, ih, List.count_cons_of_ne feed]

theorem dropReturn_eq_self {line : List Char} (other : line.head? ≠ some '\r') :
    dropReturn line = line := by
  unfold dropReturn
  split
  · exact absurd rfl other
  · rfl

/-- One line comes back as it was, unless it ends with a carriage return. -/
theorem lines_oneLine (inner : OneLine s) (other : s.toList.getLast? ≠ some '\r') :
    lines (s ++ "\n") = [s] := by
  have last : s.toList.reverse.head? ≠ some '\r' := by rwa [List.head?_reverse]
  have feed : "\n".toList = ['\n'] := rfl
  rw [lines, String.toList_append, feed, cutLines_inner inner, List.append_nil,
    dropReturn_eq_self last, List.reverse_reverse, List.map_singleton, String.ofList_toList]

theorem length_lines (s : String) : (lines (s ++ "\n")).length = s.toList.count '\n' + 1 := by
  have feed : "\n".toList = ['\n'] := rfl
  rw [lines, String.toList_append, feed, List.length_map, length_cutLines]

/-- Texts that are put one under the other are cut one by one. -/
theorem lines_join (texts : List String) :
    lines (String.join (texts.map (· ++ "\n"))) =
      texts.flatMap fun text => lines (text ++ "\n") := by
  induction texts with
  | nil => rfl
  | cons text texts ih =>
    have feed : "\n".toList = ['\n'] := rfl
    rw [List.map_cons, String.join_cons, List.flatMap_cons, ← ih]
    simp only [lines, String.toList_append, feed]
    rw [List.append_assoc, List.singleton_append, cutLines_append, List.map_append]

theorem length_lines_join (texts : List String) :
    (lines (String.join (texts.map (· ++ "\n")))).length =
      texts.length + (texts.flatMap String.toList).count '\n' := by
  rw [lines_join]
  induction texts with
  | nil => rfl
  | cons text texts ih =>
    rw [List.flatMap_cons, List.length_append, ih, length_lines, List.flatMap_cons,
      List.count_append, List.length_cons]
    omega

/-- So they come back exactly if each of them is a line. -/
theorem lines_join_eq_iff {texts : List String}
    (other : ∀ text ∈ texts, text.toList.getLast? ≠ some '\r') :
    lines (String.join (texts.map (· ++ "\n"))) = texts ↔ ∀ text ∈ texts, OneLine text := by
  constructor
  · intro same
    have counted := length_lines_join texts
    rw [same] at counted
    have none : (texts.flatMap String.toList).count '\n' = 0 := by omega
    exact fun text mem feed =>
      List.count_eq_zero.mp none (List.mem_flatMap.mpr ⟨text, mem, feed⟩)
  · intro inner
    rw [lines_join]
    have single : ∀ text ∈ texts, lines (text ++ "\n") = [text] := fun text mem =>
      lines_oneLine (inner text mem) (other text mem)
    rw [List.flatMap_congr single, List.flatMap_singleton']

end Text

namespace GroupDiff

variable {diff : GroupDiff} {group group' : String} {count count' : Nat}

/-- What is announced about a group: that it loses so many machines, or that it gets one. -/
def announcement : (String × Nat) ⊕ String → String
  | .inl entry => destroyLine entry.1 entry.2
  | .inr group => createLine group

def announced (diff : GroupDiff) : List ((String × Nat) ⊕ String) :=
  diff.groupsToRemove.entries.map .inl ++ diff.groupsNeedingMachines.map .inr

theorem summaryLines_eq (diff : GroupDiff) : diff.summaryLines =
    "Process groups have changed. This will:" :: diff.announced.map announcement := by
  rw [summaryLines, announced, List.map_append, List.map_map, List.map_map]
  rfl

theorem toList_destroyLine (group : String) (count : Nat) : (destroyLine group count).toList =
    " * destroy ".toList ++ (Nat.toDigits 10 count ++ ' ' :: '"' :: (group.toList ++
      ("\" machine".toList ++ (if count = 1 then [] else ['s'])))) := by
  have digits : (toString count).toList = Nat.toDigits 10 count := by
    rw [Nat.toString_eq_repr, Nat.toList_repr]
  have plural : (if count = 1 then "" else "s").toList = if count = 1 then [] else ['s'] := by
    split <;> rfl
  have quote : " \"".toList = [' ', '"'] := rfl
  simp only [destroyLine, String.toList_append, digits, plural, quote, List.append_assoc,
    List.cons_append, List.nil_append]

theorem isDigit_of_mem {c : Char} (mem : c ∈ Nat.toDigits 10 count) : c.isDigit = true :=
  Nat.isDigit_of_mem_toDigits (by decide) (by decide) mem

/-- The count ends at the first blank, and with it is known where the name ends. -/
theorem destroyLine_inj (same : destroyLine group count = destroyLine group' count') :
    group = group' ∧ count = count' := by
  have digit : ∀ n, ∀ c ∈ Nat.toDigits 10 n, (c != ' ') = true := by
    intro n c mem
    have := isDigit_of_mem mem
    rw [bne_iff_ne]
    rintro rfl
    cases this
  rw [← String.toList_inj, toList_destroyLine, toList_destroyLine,
    List.append_cancel_left_eq] at same
  have counts := congrArg (List.takeWhile (· != ' ')) same
  rw [List.takeWhile_append_of_pos (digit count), List.takeWhile_append_of_pos (digit count')]
    at counts
  have equal : Nat.toDigits 10 count = Nat.toDigits 10 count' := by simpa using counts
  have value : ∀ n, Nat.ofDigitChars 10 (Nat.toDigits 10 n) 0 = n := fun n =>
    Nat.ofDigitChars_ten_toDigits
  have count_eq : count = count' := by rw [← value count, equal, value]
  subst count_eq
  simp only [List.append_cancel_left_eq, List.cons.injEq, true_and,
    List.append_cancel_right_eq] at same
  exact ⟨String.toList_inj.mp same, rfl⟩

theorem createLine_inj (same : createLine group = createLine group') : group = group' := by
  rw [← String.toList_inj, createLine, createLine] at same
  simp only [String.toList_append, List.append_assoc, List.append_cancel_left_eq,
    List.append_cancel_right_eq] at same
  exact String.toList_inj.mp same

theorem destroyLine_ne_createLine : destroyLine group count ≠ createLine group' := by
  intro same
  have third := congrArg (fun line : String => line.toList[3]?) same
  simp [toList_destroyLine, createLine] at third

/-- No two announcements read the same. -/
theorem announcement_injective : Function.Injective announcement := by
  rintro (⟨group, count⟩ | group) (⟨group', count'⟩ | group') same
  · obtain ⟨rfl, rfl⟩ := destroyLine_inj same
    rfl
  · exact absurd same destroyLine_ne_createLine
  · exact absurd same.symm destroyLine_ne_createLine
  · rw [createLine_inj same]

/-- Neither do two summaries, line by line. -/
theorem groups_eq_of_summaryLines {other : GroupDiff}
    (same : diff.summaryLines = other.summaryLines) :
    diff.groupsToRemove = other.groupsToRemove ∧
      diff.groupsNeedingMachines = other.groupsNeedingMachines := by
  rw [summaryLines_eq, summaryLines_eq] at same
  have announced_eq : diff.announced = other.announced :=
    List.map_injective_iff.mpr announcement_injective (List.cons.inj same).2
  have left := congrArg (List.filterMap Sum.getLeft?) announced_eq
  have right := congrArg (List.filterMap Sum.getRight?) announced_eq
  simp [announced, Function.comp_def] at left right
  exact ⟨Dict.ext left, right⟩

def told (diff : GroupDiff) : List String := (diff.summary.map Text.lines).getD []

/-- No name of a group that changes goes over the end of a line. -/
def Plain (diff : GroupDiff) : Prop :=
  (∀ group ∈ diff.groupsToRemove.keys, Text.OneLine group) ∧
    ∀ group ∈ diff.groupsNeedingMachines, Text.OneLine group

theorem oneLine_destroyLine : Text.OneLine (destroyLine group count) ↔ Text.OneLine group := by
  have digits : Text.OneLine (toString count) := by
    intro mem
    rw [Nat.toString_eq_repr, Nat.toList_repr] at mem
    cases isDigit_of_mem mem
  have plural : Text.OneLine (if count = 1 then "" else "s") := by split <;> decide
  have destroy : Text.OneLine " * destroy " := by decide
  have before : Text.OneLine " \"" := by decide
  have after : Text.OneLine "\" machine" := by decide
  simp only [destroyLine, Text.oneLine_append, digits, plural, destroy, before, after, and_true,
    true_and]

theorem oneLine_createLine : Text.OneLine (createLine group) ↔ Text.OneLine group := by
  have before : Text.OneLine " * create 1 \"" := by decide
  have after : Text.OneLine "\" machine" := by decide
  simp only [createLine, Text.oneLine_append, before, after, and_true, true_and]

theorem oneLine_summaryLines :
    (∀ line ∈ diff.summaryLines, Text.OneLine line) ↔ diff.Plain := by
  have header : Text.OneLine "Process groups have changed. This will:" := by decide
  simp only [summaryLines, List.cons_append, List.forall_mem_cons, header, true_and,
    List.forall_mem_append, List.forall_mem_map, oneLine_destroyLine, oneLine_createLine, Plain,
    Dict.keys]

/-- No line ends with a carriage return, which would be lost. -/
theorem getLast?_of_mem_summaryLines {line : String} (mem : line ∈ diff.summaryLines) :
    line.toList.getLast? ≠ some '\r' := by
  rw [summaryLines_eq, List.mem_cons, List.mem_map] at mem
  rcases mem with rfl | ⟨⟨group, count⟩ | group, _, rfl⟩
  · decide
  · rw [announcement, destroyLine]
    split
    · rw [String.append_empty, Text.getLast?_append (by decide)]
      decide
    · rw [Text.getLast?_append (by decide)]
      decide
  · rw [announcement, createLine, Text.getLast?_append (by decide)]
    decide

/-- Told are the lines that were put together exactly if no name goes over the end of a line. -/
theorem told_eq_iff (changes : diff.isEmpty = false) :
    diff.told = diff.summaryLines ↔ diff.Plain := by
  rw [told, summary, if_neg (by simp [changes]), ← oneLine_summaryLines]
  exact Text.lines_join_eq_iff fun line mem => getLast?_of_mem_summaryLines mem

/-- What the lines of a summary say about the groups that change. -/
structure Faithful (machines : List Machine) (declared : List String) : Prop where
  /-- If no name goes over the end of a line, and only then, there is a line for every group that
  loses machines and one for every group that needs one, after a line of heading; -/
  lines : (compute machines declared).isEmpty = false →
    ((compute machines declared).told =
      "Process groups have changed. This will:" ::
        ((compute machines declared).groupsToRemove.entries.map fun entry =>
          destroyLine entry.1 entry.2) ++
        (compute machines declared).groupsNeedingMachines.map createLine ↔
      (compute machines declared).Plain)
  /-- the lines are in the order of the names, first these and then those. -/
  ordered : (compute machines declared).groupsToRemove.keys.Pairwise (· < ·) ∧
    (compute machines declared).groupsNeedingMachines.Pairwise (· < ·)
  /-- Then no two differences read the same that do not change the same groups. -/
  unambiguous : ∀ machines' declared', (compute machines declared).Plain →
    (compute machines' declared').Plain →
    (compute machines declared).summary = (compute machines' declared').summary →
    (compute machines declared).groupsToRemove = (compute machines' declared').groupsToRemove ∧
      (compute machines declared).groupsNeedingMachines =
        (compute machines' declared').groupsNeedingMachines

theorem faithful_compute (machines : List Machine) (declared : List String) :
    Faithful machines declared where
  lines := told_eq_iff
  ordered := by
    refine ⟨?_, pairwise_groupsNeedingMachines machines declared⟩
    rw [Dict.keys, List.pairwise_map]
    exact Dict.increasing _
  unambiguous machines' declared' plain plain' same := by
    have exact := exact_compute machines declared
    have exact' := exact_compute machines' declared'
    cases changes : (compute machines declared).isEmpty with
    | true =>
      have none : (compute machines' declared').summary = none := same ▸ exact.silent.mpr changes
      obtain ⟨noGroup, noNeed⟩ := exact.empty.mp changes
      obtain ⟨noGroup', noNeed'⟩ := exact'.empty.mp (exact'.silent.mp none)
      exact ⟨noGroup.trans noGroup'.symm, noNeed.trans noNeed'.symm⟩
    | false =>
      have changes' : (compute machines' declared').isEmpty = false := by
        rw [Bool.eq_false_iff] at changes ⊢
        exact fun none => changes (exact.silent.mp (same ▸ exact'.silent.mpr none))
      refine groups_eq_of_summaryLines ?_
      rw [← (told_eq_iff changes).mpr plain, ← (told_eq_iff changes').mpr plain', told, told, same]

end GroupDiff

end Rollout
