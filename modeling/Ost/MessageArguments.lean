import Ost.Lib.Substitution
import Ost.Placeholders

/-!
# The arguments of messages

`applyArgs` puts the arguments of a message in with one call for each of them, and every call
replaces the placeholders that have the lowest number in the text as it is then.  An argument that
has a percent sign and digits, or that completes a placeholder with the text around it, takes part
in the calls for the arguments after it.

Main theorems:
    applyArgs_iff:   each argument is put in for its own placeholders, and no part of another one is
      taken for a placeholder, exactly if the text is clear at each number
-/

namespace Ost

open Lib

/- What an argument that is no text is converted to, by its type, and for a localized marker. -/
variable (converted : QVariant → ArgText)

/-- The message has each placeholder replaced by its argument, and each call replaces the
placeholders that the format has of its number. -/
def Substituted (format : String) (args : List QVariant) : Prop :=
  TranslateManager.applyArgs converted format args =
      String.ofList (filled (args.map (argText converted)) args.length format.toList) ∧
    ∀ k < args.length, OwnCall (args.map (argText converted)) k format.toList
      (Lib.args ((args.map (argText converted)).take k) format.toList)

/-- The format has each of the placeholders `%1` to `%n`. -/
def Uses (n : ℕ) (format : String) : Prop := ∀ k, 1 ≤ k → k ≤ n → k ∈ numbers format.toList

/-- **The arguments are put in for their own placeholders** exactly if, for each of them, no other
placeholder up to its number can be read once those before it are in their places. -/
theorem applyArgs_iff (format : String) (args : List QVariant) (h : Uses args.length format) :
    Substituted converted format args ↔
      ∀ k < args.length, Clear (args.map (argText converted)) k format.toList := by
  have hlen : (args.map (argText converted)).length = args.length := List.length_map _
  have huse : ∀ k, 1 ≤ k → k ≤ (args.map (argText converted)).length → k ∈ numbers format.toList := by
    rw [hlen]
    exact h
  have hcalls := ownCalls_iff (args.map (argText converted)) format.toList huse
  rw [hlen] at hcalls
  refine ⟨fun hs => hcalls.mp hs.2, fun hclear => ⟨?_, hcalls.mpr hclear⟩⟩
  have hfilled := args_filled (args.map (argText converted)) format.toList huse args.length hlen.ge
    hclear
  have htake : (args.map (argText converted)).take args.length = args.map (argText converted) :=
    List.take_of_length_le hlen.le
  rw [htake] at hfilled
  unfold TranslateManager.applyArgs
  rw [hfilled]

/-- What a truth value is put in as. -/
def truthText : QVariant → ArgText
  | .bool true, _ => ['t', 'r', 'u', 'e']
  | _, _ => ['f', 'a', 'l', 's', 'e']

/-- A truth value and a text with a percent sign, in the order of their numbers. -/
theorem applyArgs_percent : Substituted truthText "%2/%1" [.bool true, .str "50% x"] := by
  have hmessage : ("%2/%1" : String).toList = ['%', '2', '/', '%', '1'] := String.toList_ofList
  have htext : ("50% x" : String).toList = ['5', '0', '%', ' ', 'x'] := String.toList_ofList
  have hmap : ([.bool true, .str "50% x"] : List QVariant).map (argText truthText) =
      [fun _ => ['t', 'r', 'u', 'e'], fun _ => ['5', '0', '%', ' ', 'x']] := by
    unfold argText
    simp only [List.map_cons, List.map_nil, htext]
    rfl
  have hbelow : ∀ k : ℕ, k < 2 → k ∈ [0, 1] := by
    intro k hk
    rw [List.mem_cons, List.mem_singleton]
    omega
  refine (applyArgs_iff truthText "%2/%1" [.bool true, .str "50% x"] ?_).mpr ?_
  · have huse : ∀ k ∈ [0, 1], k + 1 ∈ numbers ("%2/%1" : String).toList := by
      rw [hmessage]
      decide
    intro k hlo hhi
    have hk : k ≤ 2 := hhi
    have h := huse (k - 1) (hbelow (k - 1) (by omega))
    rwa [Nat.sub_add_cancel hlo] at h
  · rw [hmap, hmessage]
    have hclear : ∀ k ∈ [0, 1], Clear [fun _ => ['t', 'r', 'u', 'e'],
        fun _ => ['5', '0', '%', ' ', 'x']] k ['%', '2', '/', '%', '1'] := by decide
    exact fun k hk => hclear k (hbelow k hk)

/-- The text `%1`, as the first of two arguments, is replaced by the second. -/
theorem applyArgs_fails : ¬ ∀ (format : String) (args : List QVariant), Uses args.length format →
    TranslateManager.applyArgs truthText format args =
      String.ofList (filled (args.map (argText truthText)) args.length format.toList) := by
  intro h
  have hmessage : ("%1 %2" : String).toList = ['%', '1', ' ', '%', '2'] := String.toList_ofList
  have hfirst : ("%1" : String).toList = ['%', '1'] := String.toList_ofList
  have hsecond : ("x" : String).toList = ['x'] := String.toList_ofList
  have huse : Uses 2 "%1 %2" := by
    unfold Uses
    rw [hmessage]
    intro k hlo hhi
    have hall : ∀ k ∈ [1, 2], k ∈ numbers ['%', '1', ' ', '%', '2'] := by decide
    refine hall k ?_
    rw [List.mem_cons, List.mem_singleton]
    omega
  have hmap : ([.str "%1", .str "x"] : List QVariant).map (argText truthText) =
      [fun _ => ['%', '1'], fun _ => ['x']] := by
    unfold argText
    simp only [List.map_cons, List.map_nil, hfirst, hsecond]
  have heq := h "%1 %2" [.str "%1", .str "x"] huse
  unfold TranslateManager.applyArgs at heq
  rw [hmap, hmessage, String.ofList_inj] at heq
  exact absurd heq (by decide)

end Ost
