import Dashboards.Proofs.Yaml.Tokens
import Dashboards.Yaml.Node.Compose

/-!
# The nodes of JSON values

The tokens of a JSON value in flow collections compose to the node of the value: a tree of the same
shape with neither tags nor anchors, in which strings are quoted and other scalars are plain.

## Key results

- `Compose.takes_value`: what is composed from the tokens of a value
- `Document.ofText?_compact`: the document of the compact text of an object
-/

namespace Dashboards.Yaml

open Json (Value)

/-! ## Nodes -/

mutual

/-- The node of a value. -/
def valueNode : Value → Node
  | .null => .scalar { text := "null", style := .plain }
  | .bool true => .scalar { text := "true", style := .plain }
  | .bool false => .scalar { text := "false", style := .plain }
  | .number n => .scalar { text := n.text, style := .plain }
  | .string text => .scalar { text := text, style := .doubleQuoted }
  | .array items => .sequence (itemNodes items)
  | .object ms => .mapping (memberNodes ms)

/-- The nodes of items. -/
def itemNodes : List Value → List Node
  | [] => []
  | v :: vs => valueNode v :: itemNodes vs

/-- The nodes of the keys and the values of members. -/
def memberNodes : List (String × Value) → List (Node × Node)
  | [] => []
  | (key, v) :: ms =>
    (.scalar { text := key, style := .doubleQuoted }, valueNode v) :: memberNodes ms

end

/-! ## Parts of a composition -/

namespace Compose

/-- Looking at the next token takes none. -/
@[simp] theorem run_peek (c : Composition) : peek.run c = some (c.tokens.head?, c) := rfl

/-- Skipping takes the next token, if there is one. -/
@[simp] theorem run_skip (c : Composition) :
    skip.run c = some ((), { c with tokens := c.tokens.drop 1 }) := rfl

/-- Asking for the next token takes none. -/
@[simp] theorem run_nextIs_cons (t : Token) (ts us : List Token) (c : Composition) :
    (nextIs us).run { c with tokens := t :: ts } =
      some (us.contains t, { c with tokens := t :: ts }) := rfl

/-- What is composed from some tokens, whatever comes after them. -/
def Takes {α : Type} (x : Compose α) (ts : List Token) (a : α) : Prop :=
  ∀ (c : Composition) (rest : List Token),
    x.run { c with tokens := ts ++ rest } = some (a, { c with tokens := rest })

/-- Whether the token starts a node without properties in a flow collection. -/
def startsNode : Token → Bool
  | .scalar _ _ => true
  | .flowSequenceStart => true
  | .flowMappingStart => true
  | _ => false

/-- The tokens of a value begin with one that starts a node. -/
theorem exists_valueTokens_eq (v : Value) :
    ∃ t ts, valueTokens v = t :: ts ∧ startsNode t = true := by
  cases v with
  | bool b => cases b <;> exact ⟨_, _, rfl, rfl⟩
  | _ => exact ⟨_, _, rfl, rfl⟩

/-- A node that starts so has no properties: what is composed is its content. -/
theorem run_node_succ {t : Token} (ht : startsNode t = true) (inBlock mayBeFlush : Bool)
    (fuel : Nat) (c : Composition) (ts : List Token) :
    (node inBlock mayBeFlush (fuel + 1)).run { c with tokens := t :: ts } =
      (content inBlock mayBeFlush {} fuel).run { c with tokens := t :: ts } := by
  cases t <;> first | (cases ht; done) | simp [node, properties]

/-- The first item of a flow sequence. -/
theorem run_flowItems_true {t : Token} (ht : startsNode t = true) (fuel : Nat) (c : Composition)
    (ts : List Token) :
    (flowItems true (fuel + 1)).run { c with tokens := t :: ts } =
      (do return (← node false false fuel) :: (← flowItems false fuel) : Compose _).run
        { c with tokens := t :: ts } := by
  cases t <;> first | (cases ht; done) | simp [flowItems]

/-- An item of a flow sequence after a comma. -/
theorem run_flowItems_false {t : Token} (ht : startsNode t = true) (fuel : Nat) (c : Composition)
    (ts : List Token) :
    (flowItems false (fuel + 1)).run { c with tokens := .flowEntry :: t :: ts } =
      (flowItems true (fuel + 1)).run { c with tokens := t :: ts } := by
  cases t <;> first | (cases ht; done) | simp [flowItems]

/-- The first entry of a flow mapping, whose key is marked. -/
theorem run_flowEntries_true (fuel : Nat) (c : Composition) (ts : List Token) :
    (flowEntries true (fuel + 1)).run { c with tokens := .key :: ts } =
      (do return (← keyedEntry fuel) :: (← flowEntries false fuel) : Compose _).run
        { c with tokens := ts } := by
  simp [flowEntries]

/-- An entry of a flow mapping after a comma. -/
theorem run_flowEntries_false (fuel : Nat) (c : Composition) (ts : List Token) :
    (flowEntries false (fuel + 1)).run { c with tokens := .flowEntry :: .key :: ts } =
      (flowEntries true (fuel + 1)).run { c with tokens := .key :: ts } := by
  simp [flowEntries]

/-! ## Items and entries -/

/-- The token of a scalar composes to the scalar. -/
theorem takes_scalar (inBlock mayBeFlush : Bool) (fuel : Nat) (text : String) (style : Style) :
    Takes (node inBlock mayBeFlush (fuel + 2)) [.scalar text style]
      (.scalar { text := text, style := style }) := by
  intro c rest
  rw [List.singleton_append, run_node_succ rfl]
  simp [content]

/-- The closing bracket ends the items. -/
theorem takes_sequenceEnd (isFirst : Bool) (fuel : Nat) :
    Takes (flowItems isFirst (fuel + 1)) [.flowSequenceEnd] [] := by
  intro c rest
  simp [flowItems]

/-- The closing brace ends the entries. -/
theorem takes_mappingEnd (isFirst : Bool) (fuel : Nat) :
    Takes (flowEntries isFirst (fuel + 1)) [.flowMappingEnd] [] := by
  intro c rest
  simp [flowEntries]

/-- What composes to items composes to a sequence after an opening bracket. -/
theorem Takes.sequence {inBlock mayBeFlush : Bool} {fuel : Nat} {ts : List Token} {ns : List Node}
    (h : Takes (flowItems true fuel) ts ns) :
    Takes (node inBlock mayBeFlush (fuel + 2)) (.flowSequenceStart :: ts) (.sequence ns) := by
  intro c rest
  rw [List.cons_append, run_node_succ rfl]
  simp [content, h c rest]

/-- What composes to entries composes to a mapping after an opening brace. -/
theorem Takes.mapping {inBlock mayBeFlush : Bool} {fuel : Nat} {ts : List Token}
    {es : List (Node × Node)} (h : Takes (flowEntries true fuel) ts es) :
    Takes (node inBlock mayBeFlush (fuel + 2)) (.flowMappingStart :: ts) (.mapping es) := by
  intro c rest
  rw [List.cons_append, run_node_succ rfl]
  simp [content, h c rest]

/-- The tokens of a value before those of the items after it compose to all of them. -/
theorem Takes.item {fuel : Nat} {v : Value} {n : Node} {ts : List Token} {ns : List Node}
    (h : Takes (node false false fuel) (valueTokens v) n)
    (h' : Takes (flowItems false fuel) ts ns) :
    Takes (flowItems true (fuel + 1)) (valueTokens v ++ ts) (n :: ns) := by
  intro c rest
  -- which way the items go on is decided by the first token of the value
  obtain ⟨t, us, hv, ht⟩ := exists_valueTokens_eq v
  have hrun := run_flowItems_true ht fuel c (us ++ (ts ++ rest))
  rw [← List.cons_append, ← hv] at hrun
  rw [List.append_assoc, hrun]
  simp [h c, h' c]

/-- A comma stands before the items after the first one and adds nothing to them. -/
theorem Takes.commaItem {fuel : Nat} {v : Value} {ts : List Token} {ns : List Node}
    (h : Takes (flowItems true (fuel + 1)) (valueTokens v ++ ts) ns) :
    Takes (flowItems false (fuel + 1)) (.flowEntry :: (valueTokens v ++ ts)) ns := by
  intro c rest
  obtain ⟨t, us, hv, ht⟩ := exists_valueTokens_eq v
  have hrun := run_flowItems_false ht fuel c (us ++ (ts ++ rest))
  rw [← List.cons_append, ← hv, ← List.append_assoc] at hrun
  rw [List.cons_append, hrun, h c rest]

/-- The tokens of a key and of its value before those of the entries after it compose to all of
them. -/
theorem Takes.entry {fuel : Nat} {key : String} {v : Value} {n : Node} {ts : List Token}
    {es : List (Node × Node)} (h : Takes (node false false (fuel + 2)) (valueTokens v) n)
    (h' : Takes (flowEntries false (fuel + 3)) ts es) :
    Takes (flowEntries true (fuel + 4))
      ([.key, .scalar key .doubleQuoted, .value] ++ valueTokens v ++ ts)
      ((.scalar { text := key, style := .doubleQuoted }, n) :: es) := by
  intro c rest
  obtain ⟨t, us, hv, ht⟩ := exists_valueTokens_eq v
  -- the key is a node of its own, which the mark before the value ends
  have hkey := takes_scalar false false fuel key .doubleQuoted c
    (.value :: (valueTokens v ++ (ts ++ rest)))
  rw [List.singleton_append] at hkey
  -- a value does not begin with what would end the entry before it
  have hnext : ¬(t = .flowEntry ∨ t = .flowMappingEnd) := by
    rintro (rfl | rfl) <;> exact absurd ht (by decide)
  have hvalue := h c (ts ++ rest)
  rw [hv, List.cons_append] at hkey hvalue
  simp only [List.cons_append, List.append_assoc, List.nil_append, hv]
  rw [run_flowEntries_true]
  simp [keyedEntry, hkey, if_neg hnext, hvalue, h' c]

/-- A comma stands before the entries after the first one and adds nothing to them. -/
theorem Takes.commaEntry {fuel : Nat} {ts : List Token} {es : List (Node × Node)}
    (h : Takes (flowEntries true (fuel + 1)) (.key :: ts) es) :
    Takes (flowEntries false (fuel + 1)) (.flowEntry :: .key :: ts) es := by
  intro c rest
  rw [List.cons_append, List.cons_append, run_flowEntries_false]
  exact h c rest

/-! ## Values -/

mutual

/-- The tokens of a value compose to its node. -/
theorem takes_value : (v : Value) → (inBlock mayBeFlush : Bool) → (fuel : Nat) →
    3 * (valueTokens v).length ≤ fuel →
    Takes (node inBlock mayBeFlush fuel) (valueTokens v) (valueNode v)
  | .null, inBlock, mayBeFlush, fuel + 3, _ => takes_scalar inBlock mayBeFlush (fuel + 1) _ _
  | .bool true, inBlock, mayBeFlush, fuel + 3, _ => takes_scalar inBlock mayBeFlush (fuel + 1) _ _
  | .bool false, inBlock, mayBeFlush, fuel + 3, _ => takes_scalar inBlock mayBeFlush (fuel + 1) _ _
  | .number _, inBlock, mayBeFlush, fuel + 3, _ => takes_scalar inBlock mayBeFlush (fuel + 1) _ _
  | .string _, inBlock, mayBeFlush, fuel + 3, _ => takes_scalar inBlock mayBeFlush (fuel + 1) _ _
  | .array vs, _, _, fuel + 3, hfuel =>
    (takes_items vs (fuel + 1) (by rw [valueTokens, List.length_cons] at hfuel; omega)).sequence
  | .object ms, _, _, fuel + 3, hfuel =>
    (takes_members ms (fuel + 1) (by rw [valueTokens, List.length_cons] at hfuel; omega)).mapping

/-- The tokens of items compose to their nodes. -/
theorem takes_items : (vs : List Value) → (fuel : Nat) → 3 * (itemTokens vs).length ≤ fuel →
    Takes (flowItems true fuel) (itemTokens vs) (itemNodes vs)
  | [], fuel + 3, _ => takes_sequenceEnd true (fuel + 2)
  | [v], fuel, hfuel => by
    -- three units of fuel for each token: one for the item, and two for the node in it
    rw [itemTokens, List.length_append, List.length_singleton] at hfuel
    obtain ⟨left, rfl⟩ : ∃ left, fuel = left + 2 := ⟨fuel - 2, by omega⟩
    exact (takes_value v false false (left + 1) (by omega)).item (takes_sequenceEnd false left)
  | v :: w :: vs, fuel, hfuel => by
    rw [itemTokens_cons_cons, List.length_append, List.length_cons] at hfuel
    obtain ⟨left, rfl⟩ : ∃ left, fuel = left + 2 := ⟨fuel - 2, by omega⟩
    have hvalue := takes_value v false false (left + 1) (by omega)
    have hitems := takes_items (w :: vs) (left + 1) (by omega)
    obtain ⟨ts, hts⟩ : ∃ ts, itemTokens (w :: vs) = valueTokens w ++ ts := by
      cases vs <;> exact ⟨_, rfl⟩
    rw [itemTokens_cons_cons, hts]
    rw [hts] at hitems
    exact hvalue.item hitems.commaItem

/-- The tokens of members compose to their nodes. -/
theorem takes_members : (ms : List (String × Value)) → (fuel : Nat) →
    3 * (memberTokens ms).length ≤ fuel →
    Takes (flowEntries true fuel) (memberTokens ms) (memberNodes ms)
  | [], fuel + 3, _ => takes_mappingEnd true (fuel + 2)
  | [(key, v)], fuel, hfuel => by
    rw [memberTokens, List.length_append, List.length_append] at hfuel
    simp only [List.length_cons, List.length_nil] at hfuel
    obtain ⟨left, rfl⟩ : ∃ left, fuel = left + 4 := ⟨fuel - 4, by omega⟩
    exact (takes_value v false false (left + 2) (by omega)).entry
      (takes_mappingEnd false (left + 2))
  | (key, v) :: m :: ms, fuel, hfuel => by
    rw [memberTokens_cons_cons, List.length_append, List.length_append] at hfuel
    simp only [List.length_cons, List.length_nil] at hfuel
    obtain ⟨left, rfl⟩ : ∃ left, fuel = left + 4 := ⟨fuel - 4, by omega⟩
    have hvalue := takes_value v false false (left + 2) (by omega)
    have hmembers := takes_members (m :: ms) (left + 3) (by omega)
    -- what follows the comma begins with a key
    obtain ⟨ts, hts⟩ : ∃ ts, memberTokens (m :: ms) = .key :: ts := by
      cases ms <;> exact ⟨_, rfl⟩
    rw [memberTokens_cons_cons, hts]
    rw [hts] at hmembers
    exact hvalue.entry hmembers.commaEntry

end

end Compose

/-- The document of the compact text of an object is the node of the object reread, without
anchors; there is none if the object cannot be reread. -/
theorem Document.ofText?_compact {ms : List (String × Value)}
    (hkeys : membersHaveNameKeys ms = true) :
    Document.ofText? (Value.object ms).compact =
      (rereadValue? (.object ms)).map fun v => ⟨some (valueNode v), []⟩ := by
  rw [Document.ofText?, tokens?_compact hkeys, rereadValue?]
  cases rereadMembers? ms with
  | none => rfl
  | some ms' =>
    obtain ⟨ts, hts⟩ : ∃ ts, ts = memberTokens ms' := ⟨_, rfl⟩
    -- no directives come before the object, and the text ends with it
    have hnode := Compose.takes_value (.object ms') true false (3 * (ts.length + 1) + 3)
      (by rw [valueTokens, List.length_cons, hts]; omega)
      { tokens := [], handles := standardHandles } []
    rw [valueTokens, ← hts, List.append_nil] at hnode
    have hroot : (Compose.root (3 * (ts.length + 1) + 3)).run
        { tokens := .flowMappingStart :: ts, handles := standardHandles } =
        some (some (valueNode (.object ms')), { tokens := [], handles := standardHandles }) := by
      simp [Compose.root, Compose.skipEnds, hnode]
    simp [valueTokens, ← hts, splitDirectives, areConsistent, versionsOf, handlesOf, hroot]

end Dashboards.Yaml
