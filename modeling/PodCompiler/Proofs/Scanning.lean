import PodCompiler.Yaml.Scan
import Mathlib.Data.List.Basic

/-!
# PodCompiler — which tokens a text has

Tokens leave the queue of the scanner as soon as they are certain. For what is read it makes no
difference when they leave: reading on only adds to the queue, never before a token that has left.
So the tokens of a text can be found by reading on until the end, with all tokens still queued.

`Natural` says of a step that it does the same whether or not some tokens have left the queue
before, and how many tokens it adds at least. It is proved once for each kind of token, and carries
over to sequences of steps. `Reaches` says that reading on ends with certain tokens in the queue, and
`Underway` what holds of a run until then: with what has left put back, reading on ends with all.

Main results:

* `natural_next` — reading on does not depend on what has left the queue.
* `run_of_reaches` — the tokens that reading on ends with are the tokens that the scanner yields.
-/

namespace PodCompiler.Yaml.Scanner

/-! ## Tokens that have left -/

/-- Puts tokens back that have left the queue. -/
def restore (out : List Token) (s : Scanner) : Scanner :=
  { s with queue := out ++ s.queue, released := s.released - out.length }

/-- The tokens that may still become keys are in the queue. -/
def Sound (s : Scanner) : Prop :=
  ∀ k, some k ∈ s.pending :: s.outer → s.released ≤ k.number

/-- A step that does the same whatever has left the queue, and adds a number of tokens to it. -/
structure Natural (added : Nat) (f : Scanner → Option Scanner) : Prop where
  restore {s : Scanner} {out : List Token} (hSound : s.Sound) (hOut : out.length ≤ s.released) :
    f (s.restore out) = (f s).map (restore out)
  sound {s s' : Scanner} (hSound : s.Sound) (hStep : f s = some s') :
    s'.Sound ∧ s'.released = s.released
  grows {s s' : Scanner} (hStep : f s = some s') : s.queue.length + added ≤ s'.queue.length

theorem Natural.bind {a b : Nat} {f g : Scanner → Option Scanner} (hf : Natural a f)
    (hg : Natural b g) : Natural (a + b) fun s => (f s).bind g := by
  refine ⟨?restore, ?sound, ?grows⟩
  case restore =>
    intro s out hSound hOut
    rw [hf.restore hSound hOut]
    cases hStep : f s with
    | none => rfl
    | some s' =>
      obtain ⟨hSound', hReleased⟩ := hf.sound hSound hStep
      exact hg.restore hSound' (hReleased ▸ hOut)
  case sound =>
    intro s s'' hSound hStep
    obtain ⟨s', hFirst, hSecond⟩ := Option.bind_eq_some_iff.mp hStep
    obtain ⟨hSound', hReleased⟩ := hf.sound hSound hFirst
    obtain ⟨hSound'', hReleased'⟩ := hg.sound hSound' hSecond
    exact ⟨hSound'', hReleased'.trans hReleased⟩
  case grows =>
    intro s s'' hStep
    obtain ⟨s', hFirst, hSecond⟩ := Option.bind_eq_some_iff.mp hStep
    have hMore := hf.grows hFirst
    have hMost := hg.grows hSecond
    omega

/-- A step that adds nothing, before another one. -/
theorem Natural.before {a : Nat} {f g : Scanner → Option Scanner} (hf : Natural 0 f)
    (hg : Natural a g) : Natural a fun s => (f s).bind g := by
  simpa using hf.bind hg

theorem Natural.ite {a : Nat} {p : Scanner → Bool} {f g : Scanner → Option Scanner}
    (hp : ∀ s out, p (s.restore out) = p s) (hf : Natural a f) (hg : Natural a g) :
    Natural a fun s => if p s then f s else g s := by
  refine ⟨?restore, ?sound, ?grows⟩
  case restore =>
    intro s out hSound hOut
    simp only [hp]
    split
    · exact hf.restore hSound hOut
    · exact hg.restore hSound hOut
  case sound =>
    intro s s' hSound hStep
    split at hStep
    · exact hf.sound hSound hStep
    · exact hg.sound hSound hStep
  case grows =>
    intro s s' hStep
    split at hStep
    · exact hf.grows hStep
    · exact hg.grows hStep

theorem Natural.ite_const {a : Nat} {P : Prop} [Decidable P] {f g : Scanner → Option Scanner}
    (hf : Natural a f) (hg : Natural a g) : Natural a fun s => if P then f s else g s := by
  split
  · exact hf
  · exact hg

/-- A step that looks something up, apart from the queue, before it goes on. -/
theorem Natural.after {a : Nat} {α : Type} (look : Scanner → Option α)
    {f : α → Scanner → Option Scanner} (hLook : ∀ s out, look (s.restore out) = look s)
    (hf : ∀ x, Natural a (f x)) : Natural a fun s => (look s).bind fun x => f x s := by
  refine ⟨?restore, ?sound, ?grows⟩
  case restore =>
    intro s out hSound hOut
    simp only [hLook]
    cases look s with
    | none => rfl
    | some x => exact (hf x).restore hSound hOut
  case sound =>
    intro s s' hSound hStep
    obtain ⟨x, -, hStep⟩ := Option.bind_eq_some_iff.mp hStep
    exact (hf x).sound hSound hStep
  case grows =>
    intro s s' hStep
    obtain ⟨x, -, hStep⟩ := Option.bind_eq_some_iff.mp hStep
    exact (hf x).grows hStep

theorem natural_none (a : Nat) : Natural a fun _ => none :=
  ⟨fun _ _ => rfl, fun _ hStep => (by cases hStep), fun hStep => (by cases hStep)⟩

/-- A step that only adds tokens, and changes what has nothing to do with them. -/
theorem natural_pure {a : Nat} {g : Scanner → Scanner}
    (hRestore : ∀ s out, g (s.restore out) = (g s).restore out)
    (hKeys : ∀ s, (g s).pending = s.pending ∧ (g s).outer = s.outer ∧
      (g s).released = s.released)
    (hGrows : ∀ s, s.queue.length + a ≤ (g s).queue.length) : Natural a fun s => some (g s) := by
  refine ⟨?restore, ?sound, ?grows⟩
  case restore =>
    intro s out _ _
    rw [hRestore]
    rfl
  case sound =>
    intro s s' hSound hStep
    obtain rfl := Option.some.inj hStep
    obtain ⟨hPending, hOuter, hReleased⟩ := hKeys s
    refine ⟨?_, hReleased⟩
    intro k hk
    rw [hPending, hOuter] at hk
    rw [hReleased]
    exact hSound k hk
  case grows =>
    intro s s' hStep
    obtain rfl := Option.some.inj hStep
    exact hGrows s

/-! ## Keys -/

theorem natural_dropPending : Natural 0 dropPending := by
  refine ⟨?restore, ?sound, ?grows⟩
  case restore =>
    intro s out _ _
    cases hPending : s.pending with
    | none => simp [dropPending, restore, hPending]
    | some k =>
      cases hRequired : k.required with
      | true => simp [dropPending, restore, hPending, hRequired]
      | false => simp [dropPending, restore, hPending, hRequired]
  case sound =>
    intro s s' hSound hStep
    rw [dropPending] at hStep
    split at hStep
    · split at hStep
      · cases hStep
      · obtain rfl := Option.some.inj hStep
        refine ⟨fun k hk => hSound k ?_, rfl⟩
        exact List.mem_cons_of_mem _ (by simpa using hk)
    · obtain rfl := Option.some.inj hStep
      exact ⟨hSound, rfl⟩
  case grows =>
    intro s s' hStep
    rw [dropPending] at hStep
    split at hStep
    · split at hStep
      · cases hStep
      · obtain rfl := Option.some.inj hStep
        exact Nat.le_refl _
    · obtain rfl := Option.some.inj hStep
      exact Nat.le_refl _

/-- The next token is the one behind the queue, wherever the queue starts. -/
theorem natural_noteKey : Natural 0 fun s =>
    some { s with pending := some (PendingKey.mk (s.released + s.queue.length)
      (!s.inFlow && s.indent = s.mark.column) s.mark) } := by
  refine ⟨?restore, ?sound, ?grows⟩
  case restore =>
    intro s out _ hOut
    -- what is put back counts as queued, and no longer as released
    have hNumber : s.released - out.length + (out.length + s.queue.length) =
        s.released + s.queue.length := by omega
    simp only [restore, inFlow, List.length_append, hNumber, Option.map_some]
    rfl
  case sound =>
    intro s s' hSound hStep
    obtain rfl := Option.some.inj hStep
    refine ⟨?_, rfl⟩
    intro k hk
    rcases List.mem_cons.mp hk with hk | hk
    · obtain rfl := Option.some.inj hk
      exact Nat.le_add_right _ _
    · exact hSound k (List.mem_cons_of_mem _ hk)
  case grows =>
    intro s s' hStep
    obtain rfl := Option.some.inj hStep
    exact Nat.le_refl _

theorem natural_savePending : Natural 0 savePending :=
  .ite (fun _ _ => rfl) (natural_dropPending.bind natural_noteKey)
    (natural_pure (fun _ _ => rfl) (fun _ => ⟨rfl, rfl, rfl⟩) fun _ => Nat.le_refl _)

theorem eq_of_dropIfStale {s : Scanner} {o : Option PendingKey} {k : PendingKey}
    (hDrop : s.dropIfStale o = some (some k)) : o = some k := by
  cases o with
  | none => cases hDrop
  | some k' =>
    rw [dropIfStale] at hDrop
    split at hDrop
    · split at hDrop
      · cases hDrop
      · cases hDrop
    · exact Option.some.inj hDrop

theorem mem_of_dropIfStale {s : Scanner} {outer outer' : List (Option PendingKey)}
    (hDrop : outer.mapM s.dropIfStale = some outer') {k : PendingKey} (hk : some k ∈ outer') :
    some k ∈ outer := by
  induction outer generalizing outer' with
  | nil =>
    obtain rfl := Option.some.inj hDrop
    exact hk
  | cons o outer ih =>
    simp only [List.mapM_cons, Option.bind_eq_bind, Option.bind_eq_some_iff] at hDrop
    obtain ⟨o', ho, outer'', hOuter, hEq⟩ := hDrop
    obtain rfl := Option.some.inj hEq
    rcases List.mem_cons.mp hk with rfl | hk
    · rw [eq_of_dropIfStale ho]
      exact List.mem_cons_self
    · exact List.mem_cons_of_mem o (ih hOuter hk)

/-- Dropping tokens that can no longer become keys leaves everything else as it is. -/
theorem eq_of_dropStale {s s' : Scanner} (hDrop : s.dropStale = some s') :
    ∃ pending outer, s' = { s with pending, outer } ∧
      ∀ k, some k ∈ pending :: outer → some k ∈ s.pending :: s.outer := by
  simp only [dropStale, Option.bind_eq_bind, Option.bind_eq_some_iff] at hDrop
  obtain ⟨pending, hPending, outer, hOuter, hEq⟩ := hDrop
  refine ⟨pending, outer, (Option.some.inj hEq).symm, ?_⟩
  intro k hk
  rcases List.mem_cons.mp hk with rfl | hk
  · rw [eq_of_dropIfStale hPending]
    exact List.mem_cons_self
  · exact List.mem_cons_of_mem _ (mem_of_dropIfStale hOuter hk)

theorem dropStale_restore (s : Scanner) (out : List Token) :
    (s.restore out).dropStale = s.dropStale.map (restore out) := by
  have hPending : (s.restore out).dropIfStale (s.restore out).pending = s.dropIfStale s.pending := rfl
  have hOuter : (s.restore out).outer.mapM (s.restore out).dropIfStale =
      s.outer.mapM s.dropIfStale := rfl
  rw [dropStale, dropStale, hPending, hOuter]
  cases s.dropIfStale s.pending with
  | none => rfl
  | some pending =>
    cases s.outer.mapM s.dropIfStale with
    | none => rfl
    | some outer => rfl

theorem natural_dropStale : Natural 0 dropStale := by
  refine ⟨fun _ _ => dropStale_restore _ _, ?sound, ?grows⟩
  case sound =>
    intro s s' hSound hStep
    obtain ⟨pending, outer, rfl, hKeys⟩ := eq_of_dropStale hStep
    exact ⟨fun k hk => hSound k (hKeys k hk), rfl⟩
  case grows =>
    intro s s' hStep
    obtain ⟨pending, outer, rfl, -⟩ := eq_of_dropStale hStep
    exact Nat.le_refl _

/-! ## Block collections -/

theorem closeAbove_append (column : Int) (indents : List Int) (indent : Int)
    (out queue : List Token) :
    closeAbove column indents indent (out ++ queue) =
      (out ++ (closeAbove column indents indent queue).1,
        (closeAbove column indents indent queue).2) := by
  induction indents generalizing indent queue with
  | nil => rfl
  | cons outer indents ih =>
    rw [closeAbove, closeAbove]
    split
    · rw [List.append_assoc, ih]
    · rfl

theorem length_closeAbove (column : Int) (indents : List Int) (indent : Int)
    (queue : List Token) :
    queue.length ≤ (closeAbove column indents indent queue).1.length := by
  induction indents generalizing indent queue with
  | nil => exact Nat.le_refl _
  | cons outer indents ih =>
    rw [closeAbove]
    split
    · have hMore := ih outer (queue ++ [.blockEnd])
      rw [List.length_append] at hMore
      exact Nat.le_of_succ_le hMore
    · exact Nat.le_refl _

theorem natural_closeBlocks (column : Scanner → Int)
    (hColumn : ∀ s out, column (s.restore out) = column s) :
    Natural 0 fun s => some (s.closeBlocks (column s)) := by
  refine natural_pure ?restore ?keys ?grows
  case restore =>
    intro s out
    have hFlow : (s.restore out).inFlow = s.inFlow := rfl
    have hQueue : (s.restore out).queue = out ++ s.queue := rfl
    have hIndents : (s.restore out).indents = s.indents ∧ (s.restore out).indent = s.indent :=
      ⟨rfl, rfl⟩
    rw [hColumn, closeBlocks, closeBlocks, hFlow, hQueue, hIndents.1, hIndents.2,
      closeAbove_append]
    split
    · rfl
    · rfl
  case keys =>
    intro s
    rw [closeBlocks]
    split
    · exact ⟨rfl, rfl, rfl⟩
    · exact ⟨rfl, rfl, rfl⟩
  case grows =>
    intro s
    rw [closeBlocks]
    split
    · exact Nat.le_refl _
    · exact length_closeAbove _ _ _ _

theorem openBlock_restore (column place : Nat) (t : Token) (s : Scanner) (out : List Token) :
    (s.restore out).openBlock column (out.length + place) t =
      (s.openBlock column place t).restore out := by
  have hFlow : (s.restore out).inFlow = s.inFlow := rfl
  have hIndent : (s.restore out).indent = s.indent := rfl
  rw [openBlock, openBlock, hFlow, hIndent]
  split
  · simp [restore, List.take_length_add_append, List.drop_length_add_append]
  · rfl

theorem openBlock_keys (column place : Nat) (t : Token) (s : Scanner) :
    (s.openBlock column place t).pending = s.pending ∧
      (s.openBlock column place t).outer = s.outer ∧
      (s.openBlock column place t).released = s.released := by
  rw [openBlock]
  split
  · exact ⟨rfl, rfl, rfl⟩
  · exact ⟨rfl, rfl, rfl⟩

theorem length_openBlock (column place : Nat) (t : Token) (s : Scanner) :
    s.queue.length ≤ (s.openBlock column place t).queue.length := by
  rw [openBlock]
  split
  · simp only [List.length_append, List.length_take, List.length_cons, List.length_drop]
    omega
  · exact Nat.le_refl _

/-- Opens a collection where the next token starts, if a key may start there. -/
def openHere (t : Token) (s : Scanner) : Option Scanner :=
  if s.inFlow then some s
  else if s.keyAllowed then some (s.openBlock s.mark.column s.queue.length t)
  else none

theorem natural_openBlock (t : Token) :
    Natural 0 fun s => some (s.openBlock s.mark.column s.queue.length t) := by
  refine natural_pure ?restore (fun s => openBlock_keys _ _ _ s) fun s => length_openBlock _ _ _ s
  intro s out
  rw [← openBlock_restore]
  simp [restore]

theorem natural_openHere (t : Token) : Natural 0 (openHere t) := by
  have hSame : Natural 0 fun s => some s :=
    natural_pure (fun _ _ => rfl) (fun _ => ⟨rfl, rfl, rfl⟩) fun _ => Nat.le_refl _
  exact .ite (fun _ _ => rfl) hSame
    (.ite (fun _ _ => rfl) (natural_openBlock t) (natural_none 0))

/-- Puts a token at a place of the queue. -/
def insert (place : Nat) (t : Token) (s : Scanner) : Scanner :=
  { s with queue := s.queue.take place ++ t :: s.queue.drop place }

theorem insert_restore (place : Nat) (t : Token) (s : Scanner) (out : List Token) :
    (s.restore out).insert (out.length + place) t = (s.insert place t).restore out := by
  simp [insert, restore, List.take_length_add_append, List.drop_length_add_append]

theorem markKey_eq (k : PendingKey) (s : Scanner) :
    s.markKey k =
      { (s.insert (k.number - s.released) .key).openBlock k.mark.column (k.number - s.released)
          .blockMapping with pending := none, keyAllowed := false } :=
  rfl

/-- A key is marked in the queue, where it still is. -/
theorem markKey_restore {s : Scanner} {k : PendingKey} (hk : s.released ≤ k.number)
    {out : List Token} (hOut : out.length ≤ s.released) :
    (s.restore out).markKey k = (s.markKey k).restore out := by
  have hPlace : k.number - (s.restore out).released = out.length + (k.number - s.released) := by
    show k.number - (s.released - out.length) = _
    omega
  rw [markKey_eq, markKey_eq, hPlace, insert_restore, openBlock_restore]
  rfl

theorem markKey_keys (k : PendingKey) (s : Scanner) :
    (s.markKey k).pending = none ∧ (s.markKey k).outer = s.outer ∧
      (s.markKey k).released = s.released := by
  obtain ⟨-, hOuter, hReleased⟩ := openBlock_keys k.mark.column (k.number - s.released)
    .blockMapping (s.insert (k.number - s.released) .key)
  rw [markKey_eq]
  exact ⟨rfl, hOuter, hReleased⟩

theorem length_markKey (k : PendingKey) (s : Scanner) :
    s.queue.length ≤ (s.markKey k).queue.length := by
  have hOpen := length_openBlock k.mark.column (k.number - s.released) .blockMapping
    (s.insert (k.number - s.released) .key)
  have hInsert : s.queue.length ≤ (s.insert (k.number - s.released) .key).queue.length := by
    simp only [insert, List.length_append, List.length_take, List.length_cons, List.length_drop]
    omega
  rw [markKey_eq]
  exact Nat.le_trans hInsert hOpen

/-- Marks the key before a value, unless it has been marked already. -/
def keyBefore (s : Scanner) : Option Scanner :=
  match s.pending with
  | some k => some (s.markKey k)
  | none =>
    if s.inFlow then some { s with keyAllowed := false }
    else if s.keyAllowed then some (s.openBlock s.mark.column s.queue.length .blockMapping)
    else none

theorem natural_keyBefore : Natural 0 keyBefore := by
  have hElse : Natural 0 fun s =>
      if s.inFlow then some { s with keyAllowed := false }
      else if s.keyAllowed then some (s.openBlock s.mark.column s.queue.length .blockMapping)
      else none := by
    refine .ite (fun _ _ => rfl) ?_
      (.ite (fun _ _ => rfl) (natural_openBlock .blockMapping) (natural_none 0))
    exact natural_pure (fun _ _ => rfl) (fun _ => ⟨rfl, rfl, rfl⟩) fun _ => Nat.le_refl _
  refine ⟨?restore, ?sound, ?grows⟩
  case restore =>
    intro s out hSound hOut
    have hPending : (s.restore out).pending = s.pending := rfl
    simp only [keyBefore, hPending]
    split
    next k hKey =>
      -- the key is still in the queue, so that its place is found with or without the others
      have hk : s.released ≤ k.number := hSound k (by rw [hKey]; exact List.mem_cons_self)
      rw [markKey_restore hk hOut, Option.map_some]
    next => exact hElse.restore hSound hOut
  case sound =>
    intro s s' hSound hStep
    rw [keyBefore] at hStep
    split at hStep
    next k hKey =>
      obtain rfl := Option.some.inj hStep
      obtain ⟨hPending, hOuter, hReleased⟩ := markKey_keys k s
      refine ⟨?_, hReleased⟩
      intro k' hk'
      rw [hPending, hOuter] at hk'
      rw [hReleased]
      exact hSound k' (List.mem_cons_of_mem _ (by simpa using hk'))
    next => exact hElse.sound hSound hStep
  case grows =>
    intro s s' hStep
    rw [keyBefore] at hStep
    split at hStep
    next k hKey =>
      obtain rfl := Option.some.inj hStep
      exact length_markKey k s
    next => exact hElse.grows hStep

/-! ## Tokens -/

/-- A token at the end of the queue, and whatever else a step does. -/
theorem natural_push {t : Token} {g : Scanner → Scanner}
    (hRestore : ∀ s out, g (s.restore out) = (g s).restore out)
    (hKeys : ∀ s, (g s).pending = s.pending ∧ (g s).outer = s.outer ∧
      (g s).released = s.released)
    (hQueue : ∀ s, (g s).queue = s.queue ++ [t]) : Natural 1 fun s => some (g s) := by
  refine natural_pure hRestore hKeys ?_
  intro s
  rw [hQueue, List.length_append]
  exact Nat.le_refl _

theorem natural_endStream : Natural 1 endStream := by
  refine (natural_closeBlocks (fun _ => -1) fun _ _ => rfl).before (natural_dropPending.before ?_)
  exact natural_push (fun _ _ => by simp [push, restore]) (fun _ => ⟨rfl, rfl, rfl⟩) fun _ => rfl

theorem natural_directive : Natural 1 directive := by
  refine (natural_closeBlocks (fun _ => -1) fun _ _ => rfl).before (natural_dropPending.before ?_)
  refine Natural.after (fun s => Token.readDirective (s.rest.drop 1)) (fun _ _ => rfl) ?_
  intro r
  exact natural_push (fun _ _ => by simp [push, restore]) (fun _ => ⟨rfl, rfl, rfl⟩) fun _ => rfl

theorem natural_documentMarker (t : Token) : Natural 1 (documentMarker t) := by
  refine (natural_closeBlocks (fun _ => -1) fun _ _ => rfl).before (natural_dropPending.before ?_)
  exact natural_push (fun _ _ => by simp [push, skip, restore]) (fun _ => ⟨rfl, rfl, rfl⟩)
    fun _ => rfl

/-- What may become a key is kept while a flow collection is open. -/
theorem natural_openFlow (t : Token) : Natural 1 (openFlow t) := by
  refine natural_savePending.before ⟨?restore, ?sound, ?grows⟩
  case restore =>
    intro s out _ _
    simp [push, skip, restore]
  case sound =>
    intro s s' hSound hStep
    obtain rfl := Option.some.inj hStep
    refine ⟨?_, rfl⟩
    intro k hk
    exact hSound k (by simpa [push, skip] using hk)
  case grows =>
    intro s s' hStep
    obtain rfl := Option.some.inj hStep
    simp [push, skip]

theorem natural_closeFlow (t : Token) : Natural 1 (closeFlow t) := by
  refine natural_dropPending.before ⟨?restore, ?sound, ?grows⟩
  case restore =>
    intro s out _ _
    have hOuter : (s.restore out).outer = s.outer := rfl
    simp only [hOuter]
    split
    · simp [push, skip, restore]
    · simp [push, skip, restore]
  case sound =>
    intro s s' hSound hStep
    obtain rfl := Option.some.inj hStep
    split
    next hOuter => exact ⟨hSound, rfl⟩
    next pending outer hOuter =>
      refine ⟨?_, rfl⟩
      intro k hk
      refine hSound k (List.mem_cons_of_mem _ ?_)
      rw [hOuter]
      exact hk
  case grows =>
    intro s s' hStep
    obtain rfl := Option.some.inj hStep
    split
    · simp [push, skip]
    · simp [push, skip]

theorem natural_separator : Natural 1 separator := by
  refine natural_dropPending.before ?_
  exact natural_push (fun _ _ => by simp [push, skip, restore]) (fun _ => ⟨rfl, rfl, rfl⟩)
    fun _ => rfl

theorem item_eq : item = fun s => (s.openHere .blockSequence).bind fun s =>
    s.dropPending.bind fun s => some (({ s with keyAllowed := true }.push .item).skip 1) := by
  funext s
  unfold item openHere
  split
  · rfl
  · split
    · rfl
    · rfl

theorem natural_item : Natural 1 item := by
  rw [item_eq]
  refine (natural_openHere .blockSequence).before (natural_dropPending.before ?_)
  exact natural_push (fun _ _ => by simp [push, skip, restore]) (fun _ => ⟨rfl, rfl, rfl⟩)
    fun _ => rfl

theorem explicitKey_eq : explicitKey = fun s => (s.openHere .blockMapping).bind fun s =>
    s.dropPending.bind fun s => some (({ s with keyAllowed := !s.inFlow }.push .key).skip 1) := by
  funext s
  unfold explicitKey openHere
  split
  · rfl
  · split
    · rfl
    · rfl

theorem natural_explicitKey : Natural 1 explicitKey := by
  rw [explicitKey_eq]
  refine (natural_openHere .blockMapping).before (natural_dropPending.before ?_)
  exact natural_push (fun _ _ => by simp [inFlow, push, skip, restore])
    (fun _ => ⟨rfl, rfl, rfl⟩) fun _ => rfl

theorem value_eq : value = fun s => s.keyBefore.bind fun s => some ((s.push .value).skip 1) := by
  funext s
  unfold value
  split
  next k hKey =>
    rw [keyBefore, hKey]
    rfl
  next hKey =>
    rw [keyBefore, hKey]
    split
    · rfl
    · split
      · rfl
      · rfl

theorem natural_value : Natural 1 value := by
  rw [value_eq]
  refine natural_keyBefore.before ?_
  exact natural_push (fun _ _ => by simp [push, skip, restore]) (fun _ => ⟨rfl, rfl, rfl⟩)
    fun _ => rfl

theorem natural_anchor (make : String → Token) : Natural 1 (anchor make) := by
  refine natural_savePending.before ?_
  refine Natural.after (fun s => Token.readName (s.rest.drop 1)) (fun _ _ => rfl) ?_
  intro r
  exact natural_push (fun _ _ => by simp [push, moveTo, restore]) (fun _ => ⟨rfl, rfl, rfl⟩)
    fun _ => rfl

theorem natural_tag : Natural 1 tag := by
  refine natural_savePending.before ?_
  refine Natural.after (fun s => Token.readTag s.rest) (fun _ _ => rfl) ?_
  intro r
  refine .ite (fun _ _ => rfl) ?_ (natural_none 1)
  exact natural_push (fun _ _ => by simp [push, moveTo, restore]) (fun _ => ⟨rfl, rfl, rfl⟩)
    fun _ => rfl

theorem natural_accept (style : Style) (keyAllowed : Bool) (r : ReadScalar) :
    Natural 1 fun s => some ({ s with keyAllowed }.accept style r) :=
  natural_push (fun _ _ => by simp [push, accept, restore]) (fun _ => ⟨rfl, rfl, rfl⟩) fun _ => rfl

theorem natural_block (folded : Bool) : Natural 1 (block folded) := by
  refine natural_dropPending.before ?_
  refine Natural.after (fun s => readBlock folded s.indent (s.rest.drop 1) (s.mark.step 1))
    (fun _ _ => rfl) ?_
  exact fun r => natural_accept _ true r

theorem natural_quoted (single : Bool) : Natural 1 (quoted single) := by
  refine natural_savePending.before ?_
  refine Natural.after
    (fun s => readQuoted single (s.rest.drop 1) (s.mark.step 1) .none []) (fun _ _ => rfl) ?_
  exact fun r => natural_accept _ false r

theorem natural_plain : Natural 1 plain := by
  refine natural_savePending.before ?_
  refine Natural.after
    (fun s => readPlain s.inFlow (s.indent + 1) s.rest s.mark .none []) (fun _ _ => rfl) ?_
  exact fun r => natural_accept _ r.newLine r

/-- The token that starts with a character. -/
def tokenAt (c : Char) (rest : List Char) (s : Scanner) : Option Scanner :=
  if s.mark.column = 0 && c = '%' then s.directive
  else if s.mark.column = 0 && atDocumentMarker (c :: rest) then
    s.documentMarker (if c = '-' then .documentStart else .documentEnd)
  else if c = '[' then s.openFlow .flowSequence
  else if c = '\x7b' then s.openFlow .flowMapping
  else if c = ']' then s.closeFlow .flowSequenceEnd
  else if c = '\x7d' then s.closeFlow .flowMappingEnd
  else if c = ',' then s.separator
  else if c = '-' && atBlank rest then s.item
  else if c = '?' && (s.inFlow || atBlank rest) then s.explicitKey
  else if c = ':' && (s.inFlow || atBlank rest) then s.value
  else if c = '*' then s.anchor .alias
  else if c = '&' then s.anchor .anchor
  else if c = '!' then s.tag
  else if c = '|' && !s.inFlow then s.block false
  else if c = '>' && !s.inFlow then s.block true
  else if c = '\'' then s.quoted true
  else if c = '\x22' then s.quoted false
  else if startsPlain s.inFlow c rest then s.plain
  else none

theorem token_eq (s : Scanner) :
    s.token =
      match s.rest with
      | [] => s.endStream
      | c :: rest => s.tokenAt c rest :=
  rfl

theorem natural_tokenAt (c : Char) (rest : List Char) : Natural 1 (tokenAt c rest) := by
  unfold tokenAt
  refine .ite (fun _ _ => rfl) natural_directive ?_
  refine .ite (fun _ _ => rfl) (natural_documentMarker _) ?_
  refine .ite_const (natural_openFlow _) ?_
  refine .ite_const (natural_openFlow _) ?_
  refine .ite_const (natural_closeFlow _) ?_
  refine .ite_const (natural_closeFlow _) ?_
  refine .ite_const natural_separator ?_
  refine .ite (fun _ _ => rfl) natural_item ?_
  refine .ite (fun _ _ => rfl) natural_explicitKey ?_
  refine .ite (fun _ _ => rfl) natural_value ?_
  refine .ite_const (natural_anchor _) ?_
  refine .ite_const (natural_anchor _) ?_
  refine .ite_const natural_tag ?_
  refine .ite (fun _ _ => rfl) (natural_block false) ?_
  refine .ite (fun _ _ => rfl) (natural_block true) ?_
  refine .ite_const (natural_quoted true) ?_
  refine .ite_const (natural_quoted false) ?_
  exact .ite (fun _ _ => rfl) natural_plain (natural_none 1)

theorem natural_token : Natural 1 token := by
  have hAt := natural_tokenAt
  refine ⟨?restore, ?sound, ?grows⟩
  case restore =>
    intro s out hSound hOut
    have hRest : (s.restore out).rest = s.rest := rfl
    rw [token_eq, token_eq, hRest]
    split
    · exact natural_endStream.restore hSound hOut
    · exact (hAt _ _).restore hSound hOut
  case sound =>
    intro s s' hSound hStep
    rw [token_eq] at hStep
    split at hStep
    · exact natural_endStream.sound hSound hStep
    · exact (hAt _ _).sound hSound hStep
  case grows =>
    intro s s' hStep
    rw [token_eq] at hStep
    split at hStep
    · exact natural_endStream.grows hStep
    · exact (hAt _ _).grows hStep

theorem natural_look (count : Nat) : Natural 0 (look count) :=
  .ite (fun _ _ => rfl) (natural_none 0)
    (natural_pure (fun _ _ => rfl) (fun _ => ⟨rfl, rfl, rfl⟩) fun _ => Nat.le_refl _)

theorem natural_toToken : Natural 0 fun s => some s.toToken :=
  natural_pure (fun _ _ => rfl) (fun _ => ⟨rfl, rfl, rfl⟩) fun _ => Nat.le_refl _

/-- **Reading on** does not depend on the tokens that have left the queue, and adds a token. -/
theorem natural_next : Natural 1 next := by
  have hToken : Natural 1 fun s => (s.closeBlocks s.mark.column).token :=
    (natural_closeBlocks (fun s => s.mark.column) fun _ _ => rfl).before natural_token
  exact natural_toToken.before <| natural_dropStale.before <| (natural_look 4).before <|
    hToken.bind (natural_look 1)

/-! ## Keys that are too late -/

/-- The tokens that may still become keys do not lie in a later line. -/
def Settled (s : Scanner) : Prop :=
  ∀ k, some k ∈ s.pending :: s.outer → k.mark.line ≤ s.mark.line

/-- One place is not before another. -/
def Mark.NotBefore (m m' : Mark) : Prop :=
  m.line < m'.line ∨ (m.line = m'.line ∧ m.offset ≤ m'.offset)

theorem passBlanks_notBefore (inFlow : Bool) (cs : List Char) (m : Mark)
    (keyAllowed inComment : Bool) :
    Mark.NotBefore m (passBlanks inFlow cs m keyAllowed inComment).2.1 := by
  induction cs generalizing m keyAllowed inComment with
  | nil => exact .inr ⟨rfl, Nat.le_refl _⟩
  | cons c rest ih =>
    have hTrans : ∀ {m' : Mark} {keyAllowed inComment : Bool}, Mark.NotBefore m m' →
        Mark.NotBefore m (passBlanks inFlow rest m' keyAllowed inComment).2.1 := by
      intro m' keyAllowed inComment hFirst
      have hSecond := ih m' keyAllowed inComment
      simp only [Mark.NotBefore] at hFirst hSecond ⊢
      omega
    -- every character leads to the next place of the line or to a later line
    have hNewline : Mark.NotBefore m m.newline := .inl (Nat.lt_succ_self _)
    have hAdvance : Mark.NotBefore m (m.advance c) := .inr ⟨rfl, Nat.le_add_right _ _⟩
    have hStep : Mark.NotBefore m (m.step 1) := .inr ⟨rfl, Nat.le_add_right _ _⟩
    rw [passBlanks]
    split
    · exact hTrans hNewline
    · split
      · exact hTrans hAdvance
      · split
        · exact hTrans hAdvance
        · split
          · exact hTrans hStep
          · split
            · exact hTrans hStep
            · exact .inr ⟨rfl, Nat.le_refl _⟩

/-- What is too late stays so. -/
theorem dropIfStale_toToken {s : Scanner} {o : Option PendingKey}
    (hSettled : ∀ k, o = some k → k.mark.line ≤ s.mark.line) :
    s.toToken.dropIfStale o = (s.dropIfStale o).bind s.toToken.dropIfStale := by
  cases o with
  | none => rfl
  | some k =>
    have hLine := hSettled k rfl
    have hPlace : Mark.NotBefore s.mark s.toToken.mark :=
      passBlanks_notBefore s.inFlow s.rest s.mark s.keyAllowed false
    -- what is not too late yet is looked at only behind the blanks, on either side
    cases hStale : s.isStale k with
    | false => simp [dropIfStale, hStale]
    | true =>
      have hStale' : s.toToken.isStale k = true := by
        simp only [isStale, Bool.or_eq_true, decide_eq_true_eq, Mark.NotBefore] at hStale hPlace ⊢
        omega
      cases hRequired : k.required with
      | true => simp [dropIfStale, hStale, hStale', hRequired]
      | false => simp [dropIfStale, hStale, hStale', hRequired]

theorem mapM_dropIfStale {s : Scanner} {outer : List (Option PendingKey)}
    (hSettled : ∀ k, some k ∈ outer → k.mark.line ≤ s.mark.line) :
    outer.mapM s.toToken.dropIfStale =
      (outer.mapM s.dropIfStale).bind fun outer => outer.mapM s.toToken.dropIfStale := by
  induction outer with
  | nil => rfl
  | cons o outer ih =>
    have hFirst := dropIfStale_toToken (s := s) (o := o)
      fun k hk => hSettled k (hk ▸ List.mem_cons_self)
    have hRest := ih fun k hk => hSettled k (List.mem_cons_of_mem o hk)
    simp only [List.mapM_cons, hFirst, hRest]
    cases s.dropIfStale o with
    | none => rfl
    | some o' =>
      cases outer.mapM s.dropIfStale with
      | none =>
        simp
      | some outer' => simp [List.mapM_cons]

theorem inFlow_of_mapM {s : Scanner} {outer outer' : List (Option PendingKey)}
    (hDrop : outer.mapM s.dropIfStale = some outer') : outer'.isEmpty = outer.isEmpty := by
  cases outer with
  | nil =>
    obtain rfl := Option.some.inj hDrop
    rfl
  | cons o outer =>
    simp only [List.mapM_cons, Option.bind_eq_bind, Option.bind_eq_some_iff] at hDrop
    obtain ⟨o', -, outer'', -, hEq⟩ := hDrop
    obtain rfl := Option.some.inj hEq
    rfl

theorem dropStale_toToken {s : Scanner} (hSettled : s.Settled) :
    s.toToken.dropStale = s.dropStale.bind fun s => s.toToken.dropStale := by
  have hPending := dropIfStale_toToken (s := s) (o := s.pending)
    fun k hk => hSettled k (hk ▸ List.mem_cons_self)
  have hOuter := mapM_dropIfStale (s := s) fun k hk => hSettled k (List.mem_cons_of_mem _ hk)
  have hSame : s.toToken.pending = s.pending ∧ s.toToken.outer = s.outer := ⟨rfl, rfl⟩
  simp only [dropStale, hSame, hPending, hOuter, Option.bind_eq_bind]
  cases s.dropIfStale s.pending with
  | none => rfl
  | some pending =>
    cases hDrop : s.outer.mapM s.dropIfStale with
    | none => simp
    | some outer =>
      -- the blanks are the same ones, since as many brackets are open
      have hFlow : ({ s with pending, outer } : Scanner).toToken =
          { s.toToken with pending, outer } := by
        simp [toToken, inFlow, inFlow_of_mapM hDrop]
      simp only [Option.bind_some, hFlow]
      rfl

/-- Reading on drops what is too late first, so it may have been dropped before. -/
theorem next_eq_dropStale {s : Scanner} (hSettled : s.Settled) :
    s.next = s.dropStale.bind next := by
  have hUnfold : ∀ s : Scanner, s.next = s.toToken.dropStale.bind fun s =>
      (s.look 4).bind fun s => (s.closeBlocks s.mark.column).token.bind (look 1) := fun _ => rfl
  rw [hUnfold, dropStale_toToken hSettled, Option.bind_assoc]
  rfl

/-! ## Reading to the end -/

/-- Reading on ends with certain tokens in the queue, behind them the end of the stream. -/
inductive Reaches (ts : List Token) : Scanner → Prop where
  | ended {s s' : Scanner} (hNext : s.next = some s') (hQueue : s'.queue = ts ++ [.streamEnd])
      (hPending : s'.pending = none) (hOuter : s'.outer = []) : Reaches ts s
  | next {s s' : Scanner} (hNext : s.next = some s') (hSettled : s'.Settled)
      (hRest : Reaches ts s') : Reaches ts s

/-- Where reading goes on is all that matters. -/
theorem Reaches.congr {ts : List Token} {s s' : Scanner} (hReaches : Reaches ts s)
    (hNext : s'.next = s.next) : Reaches ts s' := by
  cases hReaches with
  | ended hEnd hQueue hPending hOuter => exact .ended (hNext.trans hEnd) hQueue hPending hOuter
  | next hStep hSettled hRest => exact .next (hNext.trans hStep) hSettled hRest

theorem Reaches.length_le {ts : List Token} {s : Scanner} (hReaches : Reaches ts s) :
    s.queue.length ≤ ts.length := by
  induction hReaches with
  | ended hNext hQueue hPending hOuter =>
    have hGrows := natural_next.grows hNext
    rw [hQueue, List.length_append] at hGrows
    exact Nat.le_of_succ_le_succ hGrows
  | next hNext hSettled hRest ih =>
    have hGrows := natural_next.grows hNext
    omega

/-- The tokens that have left the queue are the first of all. -/
theorem Reaches.begins {ts out : List Token} {s : Scanner} (hSound : s.Sound)
    (hOut : out.length ≤ s.released) (hReaches : Reaches ts (s.restore out)) : out <+: ts := by
  generalize hStart : s.restore out = start at hReaches
  induction hReaches generalizing s with
  | ended hNext hQueue hPending hOuter =>
    rw [← hStart, natural_next.restore hSound hOut] at hNext
    obtain ⟨s', hStep, rfl⟩ := Option.map_eq_some_iff.mp hNext
    have hGrows := natural_next.grows hStep
    -- the end of the stream is read last, so it is not among what has left
    have hLonger : out.length ≤ ts.length := by
      have hLength := congrArg List.length hQueue
      simp only [restore, List.length_append, List.length_singleton] at hLength
      omega
    have hBefore : out <+: ts ++ [.streamEnd] := ⟨s'.queue, hQueue⟩
    exact List.prefix_of_prefix_length_le hBefore (List.prefix_append ts [.streamEnd]) hLonger
  | next hNext hSettled hRest ih =>
    rw [← hStart, natural_next.restore hSound hOut] at hNext
    obtain ⟨s', hStep, rfl⟩ := Option.map_eq_some_iff.mp hNext
    obtain ⟨hSound', hReleased⟩ := natural_next.sound hSound hStep
    exact ih hSound' (hReleased ▸ hOut) rfl

theorem dropStale_of_none {s : Scanner} (hPending : s.pending = none) (hOuter : s.outer = []) :
    s.dropStale = some s := by
  obtain ⟨rest, cutOff, mark, queue, released, indent, indents, keyAllowed, pending, outer⟩ := s
  obtain rfl : pending = none := hPending
  obtain rfl : outer = [] := hOuter
  rfl

theorem headMayBeKey_of_none {s : Scanner} (hPending : s.pending = none) (hOuter : s.outer = []) :
    s.headMayBeKey = false := by
  simp [headMayBeKey, hPending, hOuter]

/-- Once the end is in the queue all tokens leave. -/
theorem run_ended {ts : List Token} (hEnd : .streamEnd ∉ ts) {s : Scanner}
    (hQueue : s.queue = ts ++ [.streamEnd]) (hPending : s.pending = none) (hOuter : s.outer = [])
    {fuel : Nat} (hFuel : ts.length < fuel) : run fuel s = ts ++ [.streamEnd] := by
  induction ts generalizing s fuel with
  | nil =>
    obtain ⟨fuel, rfl⟩ := Nat.exists_eq_succ_of_ne_zero (Nat.ne_of_gt hFuel)
    rw [run, hQueue]
    simp [dropStale_of_none hPending hOuter, headMayBeKey_of_none hPending hOuter]
  | cons t ts ih =>
    obtain ⟨fuel, rfl⟩ := Nat.exists_eq_succ_of_ne_zero (Nat.ne_of_gt (Nat.zero_lt_of_lt hFuel))
    have hNot : t ≠ .streamEnd := fun hEq => hEnd (hEq ▸ List.mem_cons_self)
    rw [List.length_cons] at hFuel
    have hRest := ih (fun hMem => hEnd (List.mem_cons_of_mem t hMem))
      (s := { s with queue := ts ++ [.streamEnd], released := s.released + 1 }) rfl hPending hOuter
      (Nat.lt_of_succ_lt_succ hFuel)
    rw [run, hQueue]
    simp [dropStale_of_none hPending hOuter, headMayBeKey_of_none hPending hOuter, hNot, hRest]

/-! ## Letting tokens go on the way -/

/-- A run on its way: some tokens have left the queue, and with these put back reading ends with all
tokens. -/
structure Underway (ts out : List Token) (s : Scanner) : Prop where
  sound : s.Sound
  released : out.length = s.released
  settled : (s.restore out).Settled
  reaches : Reaches ts (s.restore out)

variable {ts out : List Token} {s : Scanner}

theorem Underway.begins (hRun : Underway ts out s) : out <+: ts :=
  hRun.reaches.begins hRun.sound (Nat.le_of_eq hRun.released)

theorem Underway.length_le (hRun : Underway ts out s) :
    out.length + s.queue.length ≤ ts.length := by
  have hLength := hRun.reaches.length_le
  rwa [restore, List.length_append] at hLength

/-- What is too late can be dropped at any time. -/
theorem Underway.drop (hRun : Underway ts out s) :
    ∃ s', s.dropStale = some s' ∧ s'.queue = s.queue ∧ Underway ts out s' := by
  have hDropped := next_eq_dropStale hRun.settled
  rw [dropStale_restore] at hDropped
  cases hDrop : s.dropStale with
  | none =>
    rw [hDrop] at hDropped
    cases hRun.reaches with
    | ended hNext => cases hDropped.symm.trans hNext
    | next hNext => cases hDropped.symm.trans hNext
  | some s' =>
    rw [hDrop] at hDropped
    have hReaches := hRun.reaches.congr hDropped.symm
    obtain ⟨pending, outer, rfl, hKeys⟩ := eq_of_dropStale hDrop
    exact ⟨_, rfl, rfl,
      { sound := fun k hk => hRun.sound k (hKeys k hk)
        released := hRun.released
        settled := fun k hk => hRun.settled k (hKeys k hk)
        reaches := hReaches }⟩

/-- Reading on adds tokens, until the end is among them. -/
theorem Underway.readOn (hRun : Underway ts out s) :
    ∃ s', s.next = some s' ∧
      ((Underway ts out s' ∧ s.queue.length < s'.queue.length) ∨
        ∃ rest, ts = out ++ rest ∧ s'.queue = rest ++ [.streamEnd] ∧ s'.pending = none ∧
          s'.outer = []) := by
  have hRestore := natural_next.restore hRun.sound (Nat.le_of_eq hRun.released)
  obtain ⟨rest, hRest⟩ := hRun.begins
  cases hRun.reaches with
  | ended hNext hQueue hPending hOuter =>
    rw [hRestore] at hNext
    obtain ⟨s', hStep, rfl⟩ := Option.map_eq_some_iff.mp hNext
    refine ⟨s', hStep, .inr ⟨rest, hRest.symm, ?_, hPending, hOuter⟩⟩
    rw [← hRest, List.append_assoc] at hQueue
    exact List.append_cancel_left hQueue
  | next hNext hSettled hReaches =>
    rw [hRestore] at hNext
    obtain ⟨s', hStep, rfl⟩ := Option.map_eq_some_iff.mp hNext
    obtain ⟨hSound, hReleased⟩ := natural_next.sound hRun.sound hStep
    exact ⟨s', hStep, .inl ⟨⟨hSound, hRun.released.trans hReleased.symm, hSettled, hReaches⟩,
      natural_next.grows hStep⟩⟩

/-- A token leaves when nothing that may become a key starts at it. -/
theorem Underway.letGo (hRun : Underway ts out s) {t : Token} {queue : List Token}
    (hQueue : s.queue = t :: queue) (hHead : s.headMayBeKey = false) :
    Underway ts (out ++ [t]) { s with queue, released := s.released + 1 } := by
  have hRestore : ({ s with queue, released := s.released + 1 } : Scanner).restore (out ++ [t]) =
      s.restore out := by
    simp [restore, hQueue]
  refine
    { sound := ?sound
      released := by rw [List.length_append, List.length_singleton, hRun.released]
      settled := hRestore ▸ hRun.settled
      reaches := hRestore ▸ hRun.reaches }
  case sound =>
    intro k hk
    have hNumber := hRun.sound k hk
    -- a key that starts at the token would have kept it in the queue
    have hOther : k.number ≠ s.released := by
      intro hSame
      have hNone := List.any_eq_false.mp hHead (some k) hk
      simp [hSame] at hNone
    show s.released + 1 ≤ k.number
    omega

/-- What has left and what the run still yields are all tokens. Every unit of fuel is spent on a
token that is read or on one that leaves. -/
theorem Underway.run (hEnd : .streamEnd ∉ ts) {fuel : Nat} (hRun : Underway ts out s)
    (hFuel : 2 * ts.length + 2 ≤ fuel + out.length + (out.length + s.queue.length)) :
    out ++ s.run fuel = ts ++ [.streamEnd] := by
  induction fuel generalizing s out with
  | zero =>
    -- not everything can have left: the end has not been read
    have hLength := hRun.length_le
    have hBegins := hRun.begins.length_le
    omega
  | succ fuel ih =>
    -- reading on, with or without tokens in the queue
    have hReadOn : ∀ {s' : Scanner}, Underway ts out s' → s'.queue = s.queue →
        ∃ s'', s'.next = some s'' ∧ out ++ s''.run fuel = ts ++ [.streamEnd] := by
      intro s' hRun' hSame
      obtain ⟨s'', hStep, ⟨hMore, hGrows⟩ | ⟨rest, rfl, hQueue, hPending, hOuter⟩⟩ := hRun'.readOn
      · rw [hSame] at hGrows
        exact ⟨s'', hStep, ih hMore (by omega)⟩
      · -- the end is in the queue: from here on tokens only leave
        refine ⟨s'', hStep, ?_⟩
        have hLength := hRun.length_le
        rw [List.length_append] at hLength hFuel
        rw [run_ended (fun hMem => hEnd (List.mem_append_right out hMem)) hQueue hPending hOuter
          (by omega), List.append_assoc]
    rw [Scanner.run]
    cases hQueue : s.queue with
    | nil =>
      obtain ⟨s', hStep, hAll⟩ := hReadOn hRun rfl
      simp only [hStep, hAll]
    | cons t queue =>
      obtain ⟨s', hDrop, hSame, hRun'⟩ := hRun.drop
      simp only [hDrop]
      cases hHead : s'.headMayBeKey with
      | true =>
        obtain ⟨s'', hStep, hAll⟩ := hReadOn hRun' hSame
        simp only [if_true, hStep, hAll]
      | false =>
        have hGone := hRun'.letGo (hSame.trans hQueue) hHead
        -- the run would stop at the end of the stream, which is not among the tokens
        have hNot : t ≠ .streamEnd := by
          rintro rfl
          exact hEnd (hGone.begins.subset (by simp))
        have hAll := ih hGone (by
          rw [hQueue, List.length_cons] at hFuel
          simp only [List.length_append, List.length_singleton]
          omega)
        rw [List.append_assoc] at hAll
        simpa [hNot] using hAll

/-- **The tokens of a text.** What reading on ends with is what the scanner yields, whenever it
lets tokens go. -/
theorem run_of_reaches (hEnd : .streamEnd ∉ ts) (hQueue : s.queue = []) (hReleased : s.released = 0)
    (hPending : s.pending = none) (hOuter : s.outer = []) (hReaches : Reaches ts s) {fuel : Nat}
    (hFuel : 2 * ts.length + 2 ≤ fuel) : s.run fuel = ts ++ [.streamEnd] := by
  have hNone : ∀ k, some k ∉ s.pending :: s.outer := by simp [hPending, hOuter]
  have hRestore : s.restore [] = s := by simp [restore]
  have hRun : Underway ts [] s :=
    { sound := fun k hk => absurd hk (hNone k)
      released := hReleased.symm
      settled := fun k hk => absurd hk (hNone k)
      reaches := hRestore.symm ▸ hReaches }
  exact hRun.run hEnd (by simpa [hQueue] using hFuel)

end PodCompiler.Yaml.Scanner
