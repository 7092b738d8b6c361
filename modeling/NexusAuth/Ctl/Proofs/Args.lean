import NexusAuth.Ctl.Args

/-!
# The grammar of the arguments

`parse_raw` accepts the sentences of a grammar and nothing else.  A sentence is a list of items,
each written as one or two words, with at most one command among them.  The words determine the
items, and the parsed arguments are read off the items.
-/

namespace NexusAuth.Ctl

open NexusAuth.Lib.OrderedMap NexusAuth.Lib.Results
open Std (ExtTreeMap LawfulEqCmp)

inductive Item
  | positional (arg : String)
  | flag (key : String)
  | inline (key value : String)
  | spaced (key value : String)
deriving DecidableEq

namespace Item

def words : Item → List String
  | positional arg => [arg]
  | flag key => ["--" ++ key]
  | inline key value => ["--" ++ (key ++ "=" ++ value)]
  | spaced key value => ["--" ++ key, value]

/-- A value after a space cannot begin with dashes, one after `=` can. -/
def WellFormed : Item → Prop
  | positional arg => stripDashes arg = none
  | flag key => key ∈ booleanFlags
  | inline key _ => key ∈ valueFlags
  | spaced key value => key ∈ valueFlags ∧ stripDashes value = none

def command : Item → Option String
  | positional arg => some arg
  | _ => none

def valueOf (key : String) : Item → Option String
  | inline k value | spaced k value => if k = key then some value else none
  | _ => none

def apply (raw : RawArgs) : Item → RawArgs
  | positional arg => { raw with command := some arg }
  | flag key => raw.setFlag key
  | inline key value | spaced key value => raw.push key value

end Item

structure Sentence (items : List Item) : Prop where
  wellFormed : ∀ item ∈ items, item.WellFormed
  oneCommand : (items.filterMap Item.command).length ≤ 1

/-- The arguments hold what the items say: the command, the values of each option in their order,
and the flags. -/
structure Reads (raw : RawArgs) (items : List Item) : Prop where
  command : raw.command = (items.filterMap Item.command).head?
  many : ∀ key, raw.many key = items.filterMap (Item.valueOf key)
  flag : ∀ key, raw.flag key = true ↔ .flag key ∈ items

/-! ## Words -/

@[simp] theorem stripDashes_append (rest : String) : stripDashes ("--" ++ rest) = some rest := by
  have h : ("--" ++ rest).toList = '-' :: '-' :: rest.toList := by simp [String.toList_append]
  simp [stripDashes, h]

theorem eq_of_stripDashes {arg rest : String} (h : stripDashes arg = some rest) :
    arg = "--" ++ rest := by
  unfold stripDashes at h
  split at h
  · rename_i tail hlist
    obtain rfl := Option.some.inj h
    apply String.toList_injective
    simp [String.toList_append, hlist]
  · cases h

theorem splitOnce_of_not_mem {key : String} (h : '=' ∉ key.toList) :
    splitOnce key = (key, none) := by
  have hdrop : key.toList.dropWhile (· ≠ '=') = [] := by
    rw [List.dropWhile_eq_nil_iff]
    intro c hc
    simpa using fun heq : c = '=' => h (heq ▸ hc)
  simp only [splitOnce, hdrop]

theorem splitOnce_append {key : String} (h : '=' ∉ key.toList) (value : String) :
    splitOnce (key ++ "=" ++ value) = (key, some value) := by
  have hall : ∀ c ∈ key.toList, decide (c ≠ '=') = true := by
    intro c hc
    simpa using fun heq : c = '=' => h (heq ▸ hc)
  have hlist : (key ++ "=" ++ value).toList = key.toList ++ '=' :: value.toList := by
    simp [String.toList_append]
  have hdrop : (key ++ "=" ++ value).toList.dropWhile (· ≠ '=') = '=' :: value.toList := by
    rw [hlist, List.dropWhile_append_of_pos hall]
    simp
  have htake : (key ++ "=" ++ value).toList.takeWhile (· ≠ '=') = key.toList := by
    rw [hlist, List.takeWhile_append_of_pos hall]
    simp
  simp only [splitOnce, hdrop, htake, String.ofList_toList]

theorem eq_of_splitOnce (rest : String) :
    (splitOnce rest).2 = none ∧ rest = (splitOnce rest).1 ∨
      ∃ value, (splitOnce rest).2 = some value ∧ rest = (splitOnce rest).1 ++ "=" ++ value := by
  cases hdrop : rest.toList.dropWhile (· ≠ '=') with
  | nil =>
      left
      simp only [splitOnce, hdrop, and_self]
  | cons c tail =>
      right
      refine ⟨String.ofList tail, by simp only [splitOnce, hdrop], ?_⟩
      -- the scan stopped at the first `=`
      have hc : c = '=' := by
        have hhead := List.head?_dropWhile_not (· ≠ '=') rest.toList
        rw [hdrop] at hhead
        simpa using hhead
      have hparts : rest.toList.takeWhile (· ≠ '=') ++ rest.toList.dropWhile (· ≠ '=') =
          rest.toList :=
        List.takeWhile_append_dropWhile
      apply String.toList_injective
      rw [← hparts, hdrop, hc]
      simp only [splitOnce, hdrop, String.toList_append, String.toList_ofList]
      simp

/-! ## Keys -/

theorem eq_sign_not_mem {key : String} (h : key ∈ valueFlags ++ booleanFlags) :
    '=' ∉ key.toList := by
  revert key
  decide

theorem isEmpty_of_known {key : String} (h : key ∈ valueFlags ++ booleanFlags) (rest : String) :
    (key ++ rest).isEmpty = false := by
  have hne : ∀ key ∈ valueFlags ++ booleanFlags, key ≠ "" := by decide
  have hkey := hne key h
  simp [String.isEmpty_eq_false_iff, String.append_eq_empty_iff, hkey]

theorem not_mem_booleanFlags {key : String} (h : key ∈ valueFlags) : key ∉ booleanFlags := by
  revert key
  decide

theorem isKnownFlag_iff {key : String} :
    isKnownFlag key = true ↔ key ∈ valueFlags ∨ key ∈ booleanFlags := by
  simp [isKnownFlag]

/-! ## What the arguments hold -/

@[simp] theorem many_push (raw : RawArgs) (key value k : String) :
    (raw.push key value).many k = raw.many k ++ if key = k then [value] else [] := by
  by_cases h : key = k
  · subst h
    simp [RawArgs.push, RawArgs.many]
  · have hcmp : ¬compare key k = .eq := fun heq => h (LawfulEqCmp.eq_of_compare heq)
    simp [RawArgs.push, RawArgs.many, ExtTreeMap.getElem?_insert, h, hcmp]

@[simp] theorem flag_setFlag (raw : RawArgs) (key k : String) :
    (raw.setFlag key).flag k = true ↔ raw.flag k = true ∨ k = key := by
  unfold RawArgs.setFlag
  split
  · rename_i h
    constructor
    · exact Or.inl
    · rintro (hk | rfl)
      · exact hk
      · exact h
  · simp [RawArgs.flag]

theorem reads_push {raw : RawArgs} {items : List Item} {item : Item} {key value : String}
    (h : Reads raw items) (hitem : item = .inline key value ∨ item = .spaced key value) :
    Reads (raw.push key value) (items ++ [item]) := by
  have hcommand : item.command = none := by rcases hitem with rfl | rfl <;> rfl
  have hvalue : ∀ k, item.valueOf k = if key = k then some value else none := by
    rcases hitem with rfl | rfl <;> exact fun k => rfl
  have hflag : ∀ k, .flag k ≠ item := by rcases hitem with rfl | rfl <;> simp
  refine ⟨?_, fun k => ?_, fun k => ?_⟩
  · simpa [RawArgs.push, List.filterMap_append, List.filterMap_cons, hcommand] using h.command
  · rw [many_push, h.many k, List.filterMap_append]
    by_cases hk : key = k <;> simp [hvalue, hk]
  · simpa [RawArgs.push, RawArgs.flag, hflag] using h.flag k

theorem reads_apply {raw : RawArgs} {items : List Item} (item : Item) (h : Reads raw items)
    (hfree : item.command.isSome → raw.command = none) :
    Reads (item.apply raw) (items ++ [item]) := by
  cases item with
  | positional arg =>
      have hnone : raw.command = none := hfree rfl
      have hnil : items.filterMap Item.command = [] := by
        rw [← List.head?_eq_none_iff, ← h.command, hnone]
      refine ⟨?_, fun key => ?_, fun key => ?_⟩
      · simp [Item.apply, List.filterMap_append, hnil, Item.command]
      · simpa [Item.apply, List.filterMap_append, List.filterMap_cons, Item.valueOf, RawArgs.many]
          using h.many key
      · simpa [Item.apply, RawArgs.flag] using h.flag key
  | flag k =>
      refine ⟨?_, fun key => ?_, fun key => ?_⟩
      · simpa [Item.apply, RawArgs.setFlag, List.filterMap_append, Item.command] using h.command
      · simpa [Item.apply, RawArgs.setFlag, RawArgs.many, List.filterMap_append,
          List.filterMap_cons,
          Item.valueOf] using h.many key
      · rw [Item.apply, flag_setFlag, h.flag key]
        simp
  | inline k value => exact reads_push h (.inl rfl)
  | spaced k value => exact reads_push h (.inr rfl)

/-! ## One item -/

theorem parseFrom_words {raw : RawArgs} {item : Item} (hitem : item.WellFormed)
    (hfree : item.command.isSome → raw.command = none) (args : List String) :
    parseFrom raw (item.words ++ args) = parseFrom (item.apply raw) args := by
  cases item with
  | positional arg =>
      have hstrip : stripDashes arg = none := hitem
      simp [Item.words, parseFrom, hstrip, hfree rfl, Item.apply]
  | flag key =>
      have hkey : key ∈ booleanFlags := hitem
      have hmem : key ∈ valueFlags ++ booleanFlags := List.mem_append_right _ hkey
      have hne : key.isEmpty = false := by simpa using isEmpty_of_known hmem ""
      simp [Item.words, parseFrom, hne, splitOnce_of_not_mem (eq_sign_not_mem hmem),
        isKnownFlag_iff.mpr (.inr hkey), hkey, Item.apply]
  | inline key value =>
      have hkey : key ∈ valueFlags := hitem
      have hmem : key ∈ valueFlags ++ booleanFlags := List.mem_append_left _ hkey
      have hne : (key ++ "=" ++ value).isEmpty = false := by
        rw [String.append_assoc]
        exact isEmpty_of_known hmem _
      simp [Item.words, parseFrom, hne, splitOnce_append (eq_sign_not_mem hmem),
        isKnownFlag_iff.mpr (.inl hkey), not_mem_booleanFlags hkey, Item.apply]
  | spaced key value =>
      obtain ⟨hkey, hstrip⟩ : key ∈ valueFlags ∧ stripDashes value = none := hitem
      have hmem : key ∈ valueFlags ++ booleanFlags := List.mem_append_left _ hkey
      have hne : key.isEmpty = false := by simpa using isEmpty_of_known hmem ""
      simp [Item.words, parseFrom, hne, splitOnce_of_not_mem (eq_sign_not_mem hmem),
        isKnownFlag_iff.mpr (.inl hkey), not_mem_booleanFlags hkey, hstrip, Item.apply]

theorem parseFrom_inv {raw raw' : RawArgs} {arg : String} {args : List String}
    (h : parseFrom raw (arg :: args) = .ok raw') :
    ∃ (item : Item) (rest : List String), item.WellFormed ∧
      (item.command.isSome → raw.command = none) ∧
      arg :: args = item.words ++ rest ∧ parseFrom (item.apply raw) rest = .ok raw' := by
  cases hstrip : stripDashes arg with
  | none =>
      by_cases hfree : raw.command.isNone
      · refine ⟨.positional arg, args, hstrip, fun _ => by simpa using hfree, rfl, ?_⟩
        simpa [parseFrom, hstrip, hfree, Item.apply] using h
      · simp [parseFrom, hstrip, hfree] at h
  | some rest =>
      have harg := eq_of_stripDashes hstrip
      by_cases hempty : rest.isEmpty
      · simp [parseFrom, hstrip, hempty] at h
      by_cases hknown : isKnownFlag (splitOnce rest).1 = true
      swap
      · simp [parseFrom, hstrip, hempty, hknown] at h
      obtain ⟨hnone, hrest⟩ | ⟨value, hsome, hrest⟩ := eq_of_splitOnce rest
      · by_cases hbool : (splitOnce rest).1 ∈ booleanFlags
        · refine ⟨.flag (splitOnce rest).1, args, hbool, by simp [Item.command], ?_, ?_⟩
          · simp [Item.words, harg, ← hrest]
          · simpa [parseFrom, hstrip, hempty, hknown, hbool, hnone, Item.apply] using h
        · have hvalue := (isKnownFlag_iff.mp hknown).resolve_right hbool
          cases args with
          | nil => simp [parseFrom, hstrip, hempty, hknown, hbool, hnone] at h
          | cons value args =>
              by_cases hdashes : stripDashes value = none
              · refine ⟨.spaced (splitOnce rest).1 value, args, ⟨hvalue, hdashes⟩,
                  by simp [Item.command], ?_, ?_⟩
                · simp [Item.words, harg, ← hrest]
                · simpa [parseFrom, hstrip, hempty, hknown, hbool, hnone, hdashes,
                    Item.apply] using h
              · have hsome : (stripDashes value).isSome = true :=
                  Option.isSome_iff_ne_none.mpr hdashes
                simp [parseFrom, hstrip, hempty, hknown, hbool, hnone, hsome] at h
      · by_cases hbool : (splitOnce rest).1 ∈ booleanFlags
        · simp [parseFrom, hstrip, hempty, hknown, hbool, hsome] at h
        · refine ⟨.inline (splitOnce rest).1 value, args,
            (isKnownFlag_iff.mp hknown).resolve_right hbool, by simp [Item.command], ?_, ?_⟩
          · simp [Item.words, harg, ← hrest]
          · simpa [parseFrom, hstrip, hempty, hknown, hbool, hsome, Item.apply] using h

/-! ## Sentences -/

def Item.shape : Item → Option (String × Option String)
  | positional _ => none
  | flag key | spaced key _ => some (key, none)
  | inline key value => some (key, some value)

theorem shape_eq {item : Item} (h : item.WellFormed) :
    item.words.head?.bind (fun word => (stripDashes word).map splitOnce) = item.shape := by
  cases item with
  | positional arg =>
      have hstrip : stripDashes arg = none := h
      simp [Item.words, Item.shape, hstrip]
  | flag key =>
      have hmem : key ∈ valueFlags ++ booleanFlags := List.mem_append_right _ h
      simp [Item.words, Item.shape, splitOnce_of_not_mem (eq_sign_not_mem hmem)]
  | inline key value =>
      have hmem : key ∈ valueFlags ++ booleanFlags := List.mem_append_left _ h
      simp [Item.words, Item.shape, splitOnce_append (eq_sign_not_mem hmem)]
  | spaced key value =>
      have hmem : key ∈ valueFlags ++ booleanFlags := List.mem_append_left _ h.1
      simp [Item.words, Item.shape, splitOnce_of_not_mem (eq_sign_not_mem hmem)]

theorem head?_words_append (item : Item) (args : List String) :
    (item.words ++ args).head? = item.words.head? := by
  cases item <;> rfl

theorem words_inj {x y : Item} {xs ys : List String} (hx : x.WellFormed) (hy : y.WellFormed)
    (h : x.words ++ xs = y.words ++ ys) : x = y ∧ xs = ys := by
  have hshape : x.shape = y.shape := by
    rw [← shape_eq hx, ← shape_eq hy, ← head?_words_append x xs, h, head?_words_append]
  -- a flag and an option without `=` show the same, but no key is both
  have hkinds : ∀ {key value : String}, (Item.flag key).WellFormed →
      ¬(Item.spaced key value).WellFormed :=
      fun hflag hspaced => not_mem_booleanFlags hspaced.1 hflag
  cases x <;> cases y <;> simp only [Item.shape, reduceCtorEq, Option.some.injEq, Prod.mk.injEq,
    and_true, and_false] at hshape
  case positional.positional => simpa [Item.words] using h
  case flag.flag => simpa [Item.words, hshape] using h
  case flag.spaced => exact absurd hy (hkinds (hshape ▸ hx))
  case inline.inline => simpa [Item.words, hshape] using h
  case spaced.flag => exact absurd hx (hkinds (hshape ▸ hy))
  case spaced.spaced => simpa [Item.words, hshape] using h

theorem words_ne_nil (item : Item) (args : List String) : item.words ++ args ≠ [] := by
  cases item <;> simp [Item.words]

theorem flatMap_words_inj {xs ys : List Item} (hx : ∀ item ∈ xs, item.WellFormed)
    (hy : ∀ item ∈ ys, item.WellFormed) (h : xs.flatMap Item.words = ys.flatMap Item.words) :
    xs = ys := by
  induction xs generalizing ys with
  | nil =>
      cases ys with
      | nil => rfl
      | cons y ys => exact absurd h.symm (words_ne_nil y _)
  | cons x xs ih =>
      cases ys with
      | nil => exact absurd h (words_ne_nil x _)
      | cons y ys =>
          rw [List.flatMap_cons, List.flatMap_cons] at h
          obtain ⟨rfl, htail⟩ := words_inj (hx x (by simp)) (hy y (by simp)) h
          rw [ih (fun item hi => hx item (by simp [hi]))
            (fun item hi => hy item (by simp [hi])) htail]

theorem reads_default : Reads .default [] := by
  refine ⟨rfl, fun key => ?_, fun key => ?_⟩
  · simp [RawArgs.default, RawArgs.many]
  · simp [RawArgs.default, RawArgs.flag]

theorem command_free {raw : RawArgs} {done rest : List Item} {item : Item} (h : Reads raw done)
    (hone : ((done ++ item :: rest).filterMap Item.command).length ≤ 1)
    (hitem : item.command.isSome) :
    raw.command = none := by
  obtain ⟨arg, harg⟩ := Option.isSome_iff_exists.mp hitem
  rw [h.command, List.head?_eq_none_iff]
  simp only [List.filterMap_append, List.filterMap_cons, harg, List.length_append,
    List.length_cons] at hone
  exact List.length_eq_zero_iff.mp (by omega)

theorem parseFrom_sentence {raw : RawArgs} {done items : List Item} (h : Reads raw done)
    (hwf : ∀ item ∈ items, item.WellFormed)
    (hone : ((done ++ items).filterMap Item.command).length ≤ 1) :
    ∃ raw', parseFrom raw (items.flatMap Item.words) = .ok raw' ∧ Reads raw' (done ++ items) := by
  induction items generalizing raw done with
  | nil => exact ⟨raw, rfl, by simpa using h⟩
  | cons item items ih =>
      have hfree := command_free h hone
      have hnext := reads_apply item h hfree
      have hsplit : done ++ item :: items = done ++ [item] ++ items := by simp
      rw [List.flatMap_cons, parseFrom_words (hwf item (by simp)) hfree, hsplit]
      exact ih hnext (fun i hi => hwf i (by simp [hi])) (hsplit ▸ hone)

theorem sentence_of_parseFrom {raw raw' : RawArgs} {done : List Item} {args : List String}
    (h : Reads raw done) (hone : (done.filterMap Item.command).length ≤ 1)
    (hparse : parseFrom raw args = .ok raw') :
    ∃ items, (∀ item ∈ items, item.WellFormed) ∧ items.flatMap Item.words = args ∧
      ((done ++ items).filterMap Item.command).length ≤ 1 ∧ Reads raw' (done ++ items) := by
  -- an item takes one or two words, so the induction is on the number of words left
  induction hn : args.length using Nat.strongRecOn generalizing raw done args with
  | ind n ih =>
      cases args with
      | nil =>
          obtain rfl : raw = raw' := by simpa [parseFrom] using hparse
          exact ⟨[], by simp, rfl, by simpa using hone, by simpa using h⟩
      | cons arg args =>
          obtain ⟨item, rest, hitem, hfree, hwords, hrest⟩ := parseFrom_inv hparse
          have hless : rest.length < n := by
            have hlength := congrArg List.length hwords
            have hpos : 0 < item.words.length := by cases item <;> simp [Item.words]
            rw [hn, List.length_append] at hlength
            omega
          have hone' : ((done ++ [item]).filterMap Item.command).length ≤ 1 := by
            cases hcommand : item.command with
            | none => simpa [List.filterMap_append, List.filterMap_cons, hcommand] using hone
            | some c =>
                have hnone := hfree (by simp [hcommand])
                rw [h.command, List.head?_eq_none_iff] at hnone
                simp [List.filterMap_append, hnone, hcommand]
          obtain ⟨items, hwf, hflat, hlen, hreads⟩ :=
            ih rest.length hless (reads_apply item h hfree) hone' hrest rfl
          refine ⟨item :: items, ?_, ?_, by simpa using hlen, by simpa using hreads⟩
          · simpa using ⟨hitem, hwf⟩
          · rw [List.flatMap_cons, hflat, hwords]

/-- The arguments accepted are the sentences of the grammar.  Each is a sentence in one way only,
and what was parsed is what its items say. -/
theorem arguments_follow_the_grammar (args : List String) :
    (∀ items, Sentence items → items.flatMap Item.words = args →
      ∃ raw, parseRaw args = .ok raw ∧ Reads raw items) ∧
    (∀ raw, parseRaw args = .ok raw →
      ∃! items, (Sentence items ∧ items.flatMap Item.words = args) ∧ Reads raw items) := by
  constructor
  · rintro items hs rfl
    exact parseFrom_sentence reads_default hs.wellFormed hs.oneCommand
  · intro raw hraw
    obtain ⟨items, hwf, hflat, hone, hreads⟩ := sentence_of_parseFrom reads_default (by simp) hraw
    refine ⟨items, ⟨⟨⟨hwf, hone⟩, hflat⟩, hreads⟩, ?_⟩
    rintro other ⟨⟨hother, hsame⟩, -⟩
    exact flatMap_words_inj hother.wellFormed hwf (hsame.trans hflat.symm)

end NexusAuth.Ctl
