import Acme.Authorization
import Acme.Order
import Acme.Proofs.Json.Arrangement
import Acme.Proofs.Json.Parsing

/-!
# Arrangements of descriptions

A server may write the members of a resource, and of the identifiers, challenges and problems in it, in
any order and among members that this library does not know. Nobody who reads an order, an authorization
or a challenge can tell (`Resource.ofBody?_rearranged`).

What this library knows of an object are its fields. They are shaped like what they are read as: a
member that is no record in turn has to stay as it is.
-/

namespace Acme

open Json
open Json.Node (Overlooks overlooks_record overlooks_value)

def Problem.fields : List (String × Shape) :=
  [("type", .value), ("detail", .value), ("status", .value)]

def Identifier.fields : List (String × Shape) := [("type", .value), ("value", .value)]

def Challenge.fields : List (String × Shape) :=
  [("type", .value), ("url", .value), ("token", .value), ("status", .value), ("validated", .value),
    ("error", .record Problem.fields)]

def Authorization.fields : List (String × Shape) :=
  [("status", .value), ("identifier", .record Identifier.fields),
    ("challenges", .list (.record Challenge.fields)), ("expires", .value), ("wildcard", .value)]

def Order.fields : List (String × Shape) :=
  [("status", .value), ("expires", .value), ("identifiers", .list (.record Identifier.fields)),
    ("authorizations", .value), ("finalize", .value), ("certificate", .value),
    ("error", .record Problem.fields)]

/-! ### Readers -/

theorem Problem.overlooks : Overlooks (.record fields) ofNode? := by
  refine overlooks_record fun r r' h => ?_
  rw [h.withDefault "type" rfl overlooks_value, h.withDefault "detail" rfl overlooks_value,
    h.optional "status" rfl overlooks_value]

theorem Identifier.overlooks : Overlooks (.record fields) ofNode? := by
  refine overlooks_record fun r r' h => ?_
  rw [h.required "type" rfl overlooks_value, h.required "value" rfl overlooks_value]

theorem Challenge.overlooks : Overlooks (.record fields) ofNode? := by
  refine overlooks_record fun r r' h => ?_
  rw [h.required "type" rfl overlooks_value, h.withDefault "url" rfl overlooks_value,
    h.withDefault "token" rfl overlooks_value, h.withDefault "status" rfl overlooks_value,
    h.optional "validated" rfl overlooks_value, h.optional "error" rfl Problem.overlooks]

theorem Authorization.overlooks : Overlooks (.record fields) ofNode? := by
  refine overlooks_record fun r r' h => ?_
  rw [h.withDefault "status" rfl overlooks_value, h.required "identifier" rfl Identifier.overlooks,
    h.withDefault "challenges" rfl Challenge.overlooks.list, h.optional "expires" rfl overlooks_value,
    h.withDefault "wildcard" rfl overlooks_value]

theorem Order.overlooks : Overlooks (.record fields) ofNode? := by
  refine overlooks_record fun r r' h => ?_
  rw [h.withDefault "status" rfl overlooks_value, h.optional "expires" rfl overlooks_value,
    h.required "identifiers" rfl Identifier.overlooks.list,
    h.withDefault "authorizations" rfl overlooks_value, h.withDefault "finalize" rfl overlooks_value,
    h.optional "certificate" rfl overlooks_value, h.optional "error" rfl Problem.overlooks]

/-! ### Resources -/

namespace Resource

variable {b b' : Bytes} {n n' : Node}

theorem ofBody?_of_overlooks {R : Type} [Resource R] {s : Shape}
    (h : Overlooks s (ofNode? : Node → Option R)) (hb : Node.Writes n b) (hb' : Node.Writes n' b')
    (hn : Node.Rearranged s n n') :
    (∀ id, (ofBody? id b' : Option R) = ofBody? id b) ∧ ∀ r : R, replaced? r b' = replaced? r b := by
  have hread (id : String) : (ofBody? id b' : Option R) = ofBody? id b := by
    rw [ofBody?, ofBody?, Node.read_eq_some_iff.mpr hb, Node.read_eq_some_iff.mpr hb',
      Option.bind_eq_bind, Option.bind_some, Option.bind_eq_bind, Option.bind_some, h hn]
  exact ⟨hread, fun r => hread (id r)⟩

/-- Bodies that write rearranged descriptions are read alike, also in place of a copy. -/
theorem ofBody?_rearranged (hb : Node.Writes n b) (hb' : Node.Writes n' b') :
    (Node.Rearranged (.record Order.fields) n n' →
      (∀ id, (ofBody? id b' : Option Order) = ofBody? id b)
        ∧ ∀ o : Order, replaced? o b' = replaced? o b)
    ∧ (Node.Rearranged (.record Authorization.fields) n n' →
      (∀ id, (ofBody? id b' : Option Authorization) = ofBody? id b)
        ∧ ∀ a : Authorization, replaced? a b' = replaced? a b)
    ∧ (Node.Rearranged (.record Challenge.fields) n n' →
      (∀ id, (ofBody? id b' : Option Challenge) = ofBody? id b)
        ∧ ∀ c : Challenge, replaced? c b' = replaced? c b) :=
  ⟨ofBody?_of_overlooks Order.overlooks hb hb', ofBody?_of_overlooks Authorization.overlooks hb hb',
    ofBody?_of_overlooks Challenge.overlooks hb hb'⟩

/-- An object of two members. -/
def pair (first second : String) (x y : Node) : Node :=
  .object [(Bytes.ofText first, x), (Bytes.ofText second, y)]

/-- Two members are rearranged and change places. -/
theorem rearranged_pair {fields : List (String × Shape)} {first second : String} {s t : Shape}
    {x x' y y' : Node} (hfirst : Node.writtenText? (Bytes.ofText first) = some first)
    (hsecond : Node.writtenText? (Bytes.ofText second) = some second)
    (hs : fields.lookup first = some s) (ht : fields.lookup second = some t)
    (hx : Node.Rearranged s x x') (hy : Node.Rearranged t y y') :
    Node.Rearranged (.record fields) (pair first second x y) (pair second first y' x') := by
  have hleft : Node.Rearranged (.record fields) (pair first second x y) (pair first second x' y) :=
    @Node.Rearranged.member fields [] _ _ _ _ _ _ hfirst hs hx
  have hright : Node.Rearranged (.record fields) (pair first second x' y) (pair first second x' y') :=
    @Node.Rearranged.member fields [(Bytes.ofText first, x')] [] _ _ _ _ _ hsecond ht hy
  exact hleft.trans (hright.trans (.permuted (.swap _ _ _)))

def quoted (s : String) : Node := .string (Bytes.ofText s)

/-- A member that nobody knows, with a number that no type has room for. -/
def unknown : Bytes × Node := (Bytes.ofText "new", .array [.number (Bytes.ofText "1e999")])

theorem rearranged_unknown {fields : List (String × Shape)} (hnew : "new" ∉ fields.map (·.1))
    (members : List (Bytes × Node)) :
    Node.Rearranged (.record fields) (.object members) (.object (unknown :: members)) :=
  @Node.Rearranged.extended fields [] members _ _ _ (by decide +kernel) hnew

def plainIdentifier : Node := pair "type" "value" (quoted "dns") (quoted "a")

def mixedIdentifier : Node := pair "value" "type" (quoted "a") (quoted "dns")

def plainChallenge : Node :=
  pair "type" "error" (quoted "b") (.object [(Bytes.ofText "detail", quoted "d")])

def mixedChallenge : Node :=
  pair "error" "type" (.object [unknown, (Bytes.ofText "detail", quoted "d")]) (quoted "b")

theorem rearranged_identifier :
    Node.Rearranged (.record Identifier.fields) plainIdentifier mixedIdentifier :=
  rearranged_pair (by decide +kernel) (by decide +kernel) rfl rfl (.refl _) (.refl _)

theorem rearranged_challenge :
    Node.Rearranged (.record Challenge.fields) plainChallenge mixedChallenge :=
  rearranged_pair (by decide +kernel) (by decide +kernel) rfl rfl (.refl _)
    (rearranged_unknown (by decide) _)

def plainOrderBody : Bytes := Bytes.ofText
  "\x7b\"identifiers\":[\x7b\"type\":\"dns\",\"value\":\"a\"\x7d]\x7d"

def mixedOrderBody : Bytes := Bytes.ofText
  "\x7b\"new\":[1e999],\"identifiers\":[\x7b\"value\":\"a\",\"type\":\"dns\"\x7d]\x7d"

def plainAuthorizationBody : Bytes := Bytes.ofText <|
  "\x7b\"identifier\":\x7b\"type\":\"dns\",\"value\":\"a\"\x7d,\"challenges\":["
    ++ "\x7b\"type\":\"b\",\"error\":\x7b\"detail\":\"d\"\x7d\x7d]\x7d"

def mixedAuthorizationBody : Bytes := Bytes.ofText <|
  "\x7b\"challenges\":[\x7b\"error\":\x7b\"new\":[1e999],\"detail\":\"d\"\x7d,\"type\":\"b\"\x7d],"
    ++ "\"identifier\":\x7b\"value\":\"a\",\"type\":\"dns\"\x7d\x7d"

def plainChallengeBody : Bytes := Bytes.ofText
  "\x7b\"type\":\"b\",\"error\":\x7b\"detail\":\"d\"\x7d\x7d"

def mixedChallengeBody : Bytes := Bytes.ofText
  "\x7b\"error\":\x7b\"new\":[1e999],\"detail\":\"d\"\x7d,\"type\":\"b\"\x7d"

theorem mixed_bodies :
    (ofBody? "o" mixedOrderBody : Option Order) = ofBody? "o" plainOrderBody
    ∧ (ofBody? "a" mixedAuthorizationBody : Option Authorization) = ofBody? "a" plainAuthorizationBody
    ∧ (ofBody? "c" mixedChallengeBody : Option Challenge) = ofBody? "c" plainChallengeBody := by
  refine ⟨?order, ?authorization, ?challenge⟩
  case order =>
    have hplain : Node.read plainOrderBody
        = some (.object [(Bytes.ofText "identifiers", .array [plainIdentifier])]) := rfl
    have hmixed : Node.read mixedOrderBody
        = some (.object [unknown, (Bytes.ofText "identifiers", .array [mixedIdentifier])]) := rfl
    have hname : Node.writtenText? (Bytes.ofText "identifiers") = some "identifiers" := by
      decide +kernel
    -- the identifier within the list is rearranged, and a member is added that no order has
    have hitem : Node.Rearranged (.record Order.fields)
        (.object [(Bytes.ofText "identifiers", .array [plainIdentifier])])
        (.object [(Bytes.ofText "identifiers", .array [mixedIdentifier])]) :=
      @Node.Rearranged.member _ [] [] _ _ _ _ _ hname rfl
        (@Node.Rearranged.item _ [] [] _ _ rearranged_identifier)
    have hread := (ofBody?_rearranged (Node.read_eq_some_iff.mp hplain)
      (Node.read_eq_some_iff.mp hmixed)).1
    exact (hread (hitem.trans (rearranged_unknown (by decide) _))).1 "o"
  case authorization =>
    have hplain : Node.read plainAuthorizationBody
        = some (pair "identifier" "challenges" plainIdentifier (.array [plainChallenge])) := rfl
    have hmixed : Node.read mixedAuthorizationBody
        = some (pair "challenges" "identifier" (.array [mixedChallenge]) mixedIdentifier) := rfl
    have hitem : Node.Rearranged (.list (.record Challenge.fields)) (.array [plainChallenge])
        (.array [mixedChallenge]) :=
      @Node.Rearranged.item _ [] [] _ _ rearranged_challenge
    have hread := (ofBody?_rearranged (Node.read_eq_some_iff.mp hplain)
      (Node.read_eq_some_iff.mp hmixed)).2.1
    exact (hread (rearranged_pair (by decide +kernel) (by decide +kernel) rfl rfl rearranged_identifier
      hitem)).1 "a"
  case challenge =>
    have hplain : Node.read plainChallengeBody = some plainChallenge := rfl
    have hmixed : Node.read mixedChallengeBody = some mixedChallenge := rfl
    have hread := (ofBody?_rearranged (Node.read_eq_some_iff.mp hplain)
      (Node.read_eq_some_iff.mp hmixed)).2.2
    exact (hread rearranged_challenge).1 "c"

end Resource

end Acme
