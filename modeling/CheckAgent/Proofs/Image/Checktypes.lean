import Mathlib.Data.List.TakeWhile
import CheckAgent.Image
import CheckAgent.Proofs.Text.Blank

/-!
# The version that is told and the tag that is pulled

An image reference without a digest is read twice, and **both readings divide its last part at a
colon**: a checktype at the first one, a pull at the last one. A pull looks for the last colon of
the whole reference instead, and drops it if a slash is behind it; that is the last colon of the
last part (`checktype_pullSource`), because what stands behind a colon without a slash is part of
the last part (`lastPart_append`).

So the version that a check is told is the tag that is pulled **unless the last part has two
colons** (`told_as_pulled_iff`). Such a reference is told with a longer version than the tag that is
pulled (`two_colons_told_apart`).
-/

namespace CheckAgent

open CheckAgent.Text

/-- The kind of check that is pulled: the last part of the repository, with the tag. -/
def PullSource.checktype (p : PullSource) : Checktype :=
  ⟨String.ofList (Image.lastPart '/' p.repository.toList), p.tag.getD Image.defaultVersion⟩

namespace Image

/-! ## The last part -/

section

variable {sep : Char} {before after cs : List Char}

theorem lastPart_of_not_mem (absent : sep ∉ cs) : lastPart sep cs = cs := by
  rw [lastPart, splitLast?_eq_none_iff.mpr absent]

theorem lastPart_cons_append (before : List Char) (absent : sep ∉ after) :
    lastPart sep (before ++ sep :: after) = after := by
  rw [lastPart, splitLast?_append before absent]

theorem lastPart_append (before : List Char) (absent : sep ∉ after) :
    lastPart sep (before ++ after) = lastPart sep before ++ after := by
  cases split : splitLast? sep before with
  | none =>
    have single := splitLast?_eq_none_iff.mp split
    rw [lastPart_of_not_mem single, lastPart_of_not_mem]
    simp [single, absent]
  | some parts =>
    obtain ⟨front, last⟩ := parts
    obtain ⟨rfl, single⟩ := splitLast?_eq_some_iff.mp split
    rw [lastPart_cons_append front single, List.append_assoc, List.cons_append,
      lastPart_cons_append front]
    simp [single, absent]

/-- The last part begins behind the last separator. -/
theorem lastPart_append_of_mem (before : List Char) (present : sep ∈ after) :
    lastPart sep (before ++ after) = lastPart sep after := by
  cases split : splitLast? sep after with
  | none => exact absurd present (splitLast?_eq_none_iff.mp split)
  | some parts =>
    obtain ⟨front, last⟩ := parts
    obtain ⟨rfl, single⟩ := splitLast?_eq_some_iff.mp split
    rw [← List.append_assoc, lastPart_cons_append _ single, lastPart_cons_append front single]

theorem mem_of_mem_lastPart {c : Char} (mem : c ∈ lastPart sep cs) : c ∈ cs := by
  cases split : splitLast? sep cs with
  | none => rwa [lastPart_of_not_mem (splitLast?_eq_none_iff.mp split)] at mem
  | some parts =>
    obtain ⟨front, last⟩ := parts
    obtain ⟨rfl, single⟩ := splitLast?_eq_some_iff.mp split
    rw [lastPart_cons_append front single] at mem
    simp [mem]

end

/-! ## Two readings of the last part -/

/-- The checktype of a last part that is divided somewhere, or not at all. -/
def divided (last : List Char) : Option (List Char × List Char) → Checktype
  | some (name, version) => ⟨String.ofList name, String.ofList version⟩
  | none => ⟨String.ofList last, defaultVersion⟩

theorem checktype_eq {image : String} (undigested : '@' ∉ image.toList) :
    checktype image =
      divided (lastPart '/' image.toList) (splitFirst? ':' (lastPart '/' image.toList)) := by
  have whole : image.toList.takeWhile (· ≠ '@') = image.toList := by
    rw [List.takeWhile_eq_self_iff]
    rintro c mem
    rw [decide_eq_true_eq]
    rintro rfl
    exact undigested mem
  rw [checktype, whole]
  cases splitFirst? ':' (lastPart '/' image.toList) <;> rfl

/-- **A pull divides the last part at its last colon.** -/
theorem checktype_pullSource {image : String} (undigested : '@' ∉ image.toList) :
    (pullSource image).checktype =
      divided (lastPart '/' image.toList) (splitLast? ':' (lastPart '/' image.toList)) := by
  have plain : image.toList.contains '@' = false := by simpa using undigested
  unfold pullSource
  simp only [plain, Bool.false_eq_true, if_false]
  -- the colon that a pull finds, in or before the last part
  cases split : splitLast? ':' image.toList with
  | none =>
    have absent : ':' ∉ lastPart '/' image.toList := fun mem =>
      splitLast?_eq_none_iff.mp split (mem_of_mem_lastPart mem)
    rw [splitLast?_eq_none_iff.mpr absent]
    rfl
  | some parts =>
    obtain ⟨repository, tag⟩ := parts
    obtain ⟨whole, single⟩ := splitLast?_eq_some_iff.mp split
    by_cases slash : '/' ∈ tag
    · have last : lastPart '/' image.toList = lastPart '/' tag := by
        rw [whole, ← List.singleton_append, ← List.append_assoc,
          lastPart_append_of_mem _ slash]
      have absent : ':' ∉ lastPart '/' image.toList := by
        rw [last]
        exact fun mem => single (mem_of_mem_lastPart mem)
      rw [splitLast?_eq_none_iff.mpr absent]
      simp only [List.contains_iff_mem, slash, if_true]
      rfl
    · have last : lastPart '/' image.toList = lastPart '/' repository ++ ':' :: tag := by
        rw [whole, lastPart_append]
        simp [slash]
      rw [last, splitLast?_append _ single]
      simp [slash, PullSource.checktype, divided]

theorem divided_inj {last : List Char} {parts parts' : Option (List Char × List Char)}
    (any : parts.isSome = parts'.isSome) (same : divided last parts = divided last parts') :
    parts = parts' := by
  cases parts with
  | none =>
    cases parts' with
    | none => rfl
    | some p => cases any
  | some p =>
    cases parts' with
    | none => cases any
    | some p' =>
      obtain ⟨names, versions⟩ := Checktype.mk.inj same
      exact congrArg some (Prod.ext (String.ofList_inj.mp names) (String.ofList_inj.mp versions))

theorem isSome_splitFirst? (sep : Char) (cs : List Char) :
    (splitFirst? sep cs).isSome = (splitLast? sep cs).isSome := by
  rw [Bool.eq_iff_iff, Option.isSome_iff_ne_none, Option.isSome_iff_ne_none, Ne, Ne,
    splitFirst?_eq_none_iff, splitLast?_eq_none_iff]

/-- **What is told and what is pulled.** A check is told the last part of the repository that is
pulled and the tag that is pulled, or the default version, exactly if the last part of its image has
one colon or none. -/
theorem told_as_pulled_iff {image : String} (undigested : '@' ∉ image.toList) :
    checktype image = (pullSource image).checktype ↔
      (lastPart '/' image.toList).count ':' ≤ 1 := by
  rw [checktype_eq undigested, checktype_pullSource undigested, ← splitFirst?_eq_splitLast?_iff]
  constructor
  · exact divided_inj (isSome_splitFirst? _ _)
  · intro same
    rw [same]

/-- The port of a registry is no version. -/
theorem told_behind_port :
    checktype "registry.local:5000/checks/nmap:1.2" =
      (pullSource "registry.local:5000/checks/nmap:1.2").checktype :=
  (told_as_pulled_iff (by decide +kernel)).mpr (by decide +kernel)

/-- With two colons the tag is told as a part of the version only. -/
theorem two_colons_told_apart :
    '@' ∉ "nmap:1:2".toList ∧ checktype "nmap:1:2" = ⟨"nmap", "1:2"⟩ ∧
      (pullSource "nmap:1:2").checktype = ⟨"nmap:1", "2"⟩ := by
  decide +kernel

end Image

end CheckAgent
