import Deltio.Lib.Base64
import Deltio.Lib.Listing
import Deltio.StreamingPull
import Deltio.TopicActor
import Deltio.TopicManager

namespace Deltio

open Lib

structure Paging where
  size : ℕ
  offset : Option ℕ
deriving DecidableEq

namespace Paging

/-- Passing 0 as a page size results in a default. -/
def new (size : ℕ) (offset : Option ℕ) : Paging where
  size := if size = 0 then 20 else if 1000 < size then 1000 else size
  offset := offset

def cappedSize (p : Paging) : ℕ := min p.size 10000

def toSkip (p : Paging) : ℕ := p.offset.getD 0

def nextPage (p : Paging) (newOffset : Option ℕ) : Paging := { p with offset := newOffset }

def nextPageFromSliceResult {α : Type*} (p : Paging) (result : List α) : Paging :=
  let skipValue := p.toSkip
  let newOffset := if !result.isEmpty then some ((skipValue + result.length) % 2 ^ 64) else none
  p.nextPage newOffset

end Paging

structure Page (R : Type*) where
  items : List R
  offset : Option ℕ

/-- Applies pagination to the sorted resources. -/
def Paging.apply {R : Type*} (paging : Paging) (sorted : List R) : Page R :=
  let items := (sorted.drop paging.toSkip).take paging.cappedSize
  ⟨items, (paging.nextPageFromSliceResult items).offset⟩

def SubscriptionName.isInProject (n : SubscriptionName) (projectId : String) : Bool :=
  n.projectId == projectId

def TopicManager.topicsForProject (m : TopicManager) (projectId : String) : List Topic :=
  listing Topic.internalId (fun t => t.name.isInProject projectId) m.topics

def TopicManager.listTopics (m : TopicManager) (projectId : String) (paging : Paging) :
    Page Topic := paging.apply (m.topicsForProject projectId)

def SubscriptionManagerState.subscriptionsForProject (m : SubscriptionManagerState)
    (projectId : String) : List Subscription :=
  listing Subscription.internalId (fun s => s.name.isInProject projectId) m.subscriptions

def SubscriptionManagerState.listSubscriptionsInProject (m : SubscriptionManagerState)
    (projectId : String) (paging : Paging) : Page Subscription :=
  paging.apply (m.subscriptionsForProject projectId)

def TopicActor.sortedSubscriptions (t : TopicActor) : List Subscription :=
  listing Subscription.internalId (fun _ => true) t.subscriptions

def TopicActor.listSubscriptions (t : TopicActor) (paging : Paging) : Page Subscription :=
  paging.apply t.sortedSubscriptions

/-- The `STANDARD` engine of the `base64` crate, with what is relied on. -/
structure Base64Engine where
  encode : List UInt8 → String
  decode : String → Option (List UInt8)
  decode_encode : ∀ bytes, decode (encode bytes) = some bytes
  decode_empty : decode "" = some []

def Base64Engine.standard : Base64Engine :=
  ⟨Base64.encode, Base64.decode, Base64.decode_encode, rfl⟩

/-- The bytes of a `usize`, least significant first. -/
def toNeBytes (value : ℕ) : List UInt8 :=
  (List.range 8).map fun i => UInt8.ofNat (value / 256 ^ i)

def fromNeBytes (bytes : List UInt8) : ℕ := bytes.foldr (fun b n => b.toNat + 256 * n) 0

structure PageToken where
  value : ℕ
deriving DecidableEq

def PageToken.encode (engine : Base64Engine) (token : PageToken) : String :=
  engine.encode (toNeBytes token.value)

def PageToken.tryDecode (engine : Base64Engine) (encoded : String) : Option PageToken := do
  let bytes ← engine.decode encoded
  if bytes.length = 8 then some ⟨fromNeBytes bytes⟩ else none

def parsePageToken (engine : Base64Engine) (rawValue : String) :
    Except Status (Option PageToken) :=
  if rawValue.isEmpty then .ok none
  else
    match PageToken.tryDecode engine rawValue with
    | some decoded => .ok (some decoded)
    | none => .error (.invalidArgument "Page token malformed")

/-- The size is a signed number in the request. -/
def parsePaging (engine : Base64Engine) (size : ℤ) (token : String) : Except Status Paging := do
  let pageToken ← parsePageToken engine token
  if size < 0 then .error (.invalidArgument "Not a valid page size")
  else .ok (.new size.toNat (pageToken.map PageToken.value))

section

variable {R : Type} (engine : Base64Engine) (list : ℕ → Paging → Page R) (pageSize : ℤ)

/-- The `i`-th request: the resources of the page, and the next page token. -/
def pageRequest (i : ℕ) (token : String) : Except Status (List R × String) := do
  let paging ← parsePaging engine pageSize token
  let page := list i paging
  let pageToken := page.offset.map fun v => PageToken.encode engine ⟨v⟩
  return (page.items, pageToken.getD "")

def followTokens : ℕ → ℕ → String → Option (List (List R))
  | 0, _, _ => none
  | fuel + 1, i, token =>
    match pageRequest engine list pageSize i token with
    | .error _ => none
    | .ok (items, nextPageToken) =>
      if nextPageToken = "" then some [items]
      else (followTokens fuel (i + 1) nextPageToken).map (items :: ·)

/-- A client that starts with an empty token gets these pages and is done. -/
def Follows (pages : List (List R)) : Prop :=
  ∃ fuel, followTokens engine list pageSize fuel 0 "" = some pages

end

lemma length_toNeBytes (value : ℕ) : (toNeBytes value).length = 8 := by simp [toNeBytes]

lemma fromNeBytes_toNeBytes {value : ℕ} (h : value < 2 ^ 64) :
    fromNeBytes (toNeBytes value) = value := by
  simp only [toNeBytes, fromNeBytes, List.range_succ, List.range_zero, List.nil_append,
    List.cons_append, List.map_cons, List.map_nil, List.foldr_cons, List.foldr_nil,
    UInt8.toNat_ofNat']
  omega

namespace PageToken

variable (engine : Base64Engine)

lemma tryDecode_encode {value : ℕ} (h : value < 2 ^ 64) :
    tryDecode engine (encode engine ⟨value⟩) = some ⟨value⟩ := by
  unfold tryDecode encode
  rw [engine.decode_encode]
  simp only [Option.bind_eq_bind, Option.bind_some, length_toNeBytes, if_true,
    fromNeBytes_toNeBytes h]

lemma encode_ne_empty (token : PageToken) : encode engine token ≠ "" := by
  intro h
  have hdecode := engine.decode_encode (toNeBytes token.value)
  rw [show engine.encode (toNeBytes token.value) = "" from h, engine.decode_empty] at hdecode
  have hlen := congrArg List.length (Option.some.inj hdecode)
  rw [length_toNeBytes] at hlen
  cases hlen

end PageToken

def TokenFor (engine : Base64Engine) (token : String) (offset : ℕ) : Prop :=
  (token = "" ∧ offset = 0) ∨ (offset < 2 ^ 64 ∧ token = PageToken.encode engine ⟨offset⟩)

def fullPage (pageSize : ℤ) : ℕ := (Paging.new pageSize.toNat none).cappedSize

lemma fullPage_pos (pageSize : ℤ) : 0 < fullPage pageSize := by
  unfold fullPage Paging.new Paging.cappedSize
  dsimp only
  split_ifs <;> omega

section

variable {engine : Base64Engine} {pageSize : ℤ} {token : String} {offset : ℕ}

lemma parsePaging_of_token {pageToken : Option PageToken}
    (h : parsePageToken engine token = .ok pageToken) (hsize : 0 ≤ pageSize) :
    parsePaging engine pageSize token =
      .ok (.new pageSize.toNat (pageToken.map PageToken.value)) := by
  unfold parsePaging
  rw [h]
  exact if_neg (Int.not_lt.mpr hsize)

lemma TokenFor.parsePaging (h : TokenFor engine token offset) (hsize : 0 ≤ pageSize) :
    ∃ paging, parsePaging engine pageSize token = .ok paging ∧ paging.toSkip = offset ∧
      paging.cappedSize = fullPage pageSize := by
  rcases h with ⟨rfl, rfl⟩ | ⟨hlt, rfl⟩
  · have hnone : parsePageToken engine "" = .ok none := rfl
    exact ⟨_, parsePaging_of_token hnone hsize, rfl, rfl⟩
  · have hsome : parsePageToken engine (PageToken.encode engine ⟨offset⟩) =
        .ok (some ⟨offset⟩) := by
      unfold parsePageToken
      rw [PageToken.tryDecode_encode engine hlt]
      have hne : (PageToken.encode engine ⟨offset⟩).isEmpty = false := by
        simpa using PageToken.encode_ne_empty engine ⟨offset⟩
      rw [hne]
      rfl
    exact ⟨_, parsePaging_of_token hsome hsize, rfl, rfl⟩

/-- One request: the page from the offset on, and the token for the offset after it. -/
lemma pageRequest_eq {R : Type} {l : ℕ → List R} (h : TokenFor engine token offset)
    (hsize : 0 ≤ pageSize) {i : ℕ} (hlen : (l i).length < 2 ^ 64) :
    ∃ nextPageToken, pageRequest engine (fun i paging => paging.apply (l i)) pageSize i token =
        .ok (pageAt (fullPage pageSize) offset (l i), nextPageToken) ∧
      (nextPageToken = "" ↔ pageAt (fullPage pageSize) offset (l i) = []) ∧
      (pageAt (fullPage pageSize) offset (l i) ≠ [] → TokenFor engine nextPageToken
        (offset + (pageAt (fullPage pageSize) offset (l i)).length)) := by
  obtain ⟨paging, hparse, hskip, hcapped⟩ := h.parsePaging hsize
  set page := pageAt (fullPage pageSize) offset (l i) with hpage
  have hitems : (paging.apply (l i)).items = page := by
    rw [hpage, ← hskip, ← hcapped]
    rfl
  have hoffset : (paging.apply (l i)).offset =
      if !page.isEmpty then some ((offset + page.length) % 2 ^ 64) else none := by
    rw [hpage, ← hskip, ← hcapped]
    rfl
  have hrequest : pageRequest engine (fun i paging => paging.apply (l i)) pageSize i token =
      .ok ((paging.apply (l i)).items, ((paging.apply (l i)).offset.map fun v =>
        PageToken.encode engine ⟨v⟩).getD "") := by
    unfold pageRequest
    rw [hparse]
    rfl
  refine ⟨_, by rw [hrequest, hitems], ?_, fun hne => ?_⟩
  · rw [hoffset]
    cases hnil : page with
    | nil => exact iff_of_true rfl rfl
    | cons r rs => exact iff_of_false (PageToken.encode_ne_empty engine _) (List.cons_ne_nil r rs)
  · have hlt : offset + page.length < 2 ^ 64 := (offset_add_length_le hne).trans_lt hlen
    have hfull : (!page.isEmpty) = true := by
      simpa using hne
    rw [hoffset, if_pos hfull, Nat.mod_eq_of_lt hlt]
    exact .inr ⟨hlt, rfl⟩

end

section

variable {R : Type} {engine : Base64Engine} {pageSize : ℤ} {l : ℕ → List R}

lemma followTokens_of_walk (hsize : 0 ≤ pageSize) (hlen : ∀ i, (l i).length < 2 ^ 64)
    {i offset : ℕ} {pages : List (List R)} (h : OffsetWalk (fullPage pageSize) l i offset pages)
    {token : String} (htoken : TokenFor engine token offset) :
    followTokens engine (fun i paging => paging.apply (l i)) pageSize pages.length i token =
      some pages := by
  induction h generalizing token with
  | @last i offset hpage =>
    obtain ⟨next, hrequest, hlast, -⟩ := pageRequest_eq (l := l) htoken hsize (hlen i)
    simp only [List.length_singleton, followTokens, hrequest, if_pos (hlast.mpr hpage), hpage]
  | @next i offset pages hpage hs ih =>
    obtain ⟨next, hrequest, hlast, hnext⟩ := pageRequest_eq (l := l) htoken hsize (hlen i)
    have hne : next ≠ "" := fun he => hpage (hlast.mp he)
    simp only [List.length_cons, followTokens, hrequest, if_neg hne, ih (hnext hpage),
      Option.map_some]

lemma walk_of_followTokens (hsize : 0 ≤ pageSize) (hlen : ∀ i, (l i).length < 2 ^ 64)
    {fuel i offset : ℕ} {token : String} (htoken : TokenFor engine token offset)
    {pages : List (List R)}
    (h : followTokens engine (fun i paging => paging.apply (l i)) pageSize fuel i token =
      some pages) : OffsetWalk (fullPage pageSize) l i offset pages := by
  induction fuel generalizing i offset token pages with
  | zero => cases h
  | succ fuel ih =>
    obtain ⟨next, hrequest, hlast, hnext⟩ := pageRequest_eq (l := l) htoken hsize (hlen i)
    simp only [followTokens, hrequest] at h
    split_ifs at h with hempty
    · have hpage := hlast.mp hempty
      cases h
      rw [hpage]
      exact .last hpage
    · obtain ⟨rest, hrest, rfl⟩ := Option.map_eq_some_iff.mp h
      have hpage := mt hlast.mpr hempty
      exact .next hpage (ih (hnext hpage) hrest)

/-- Following the tokens is walking by offsets. -/
theorem follows_iff (hsize : 0 ≤ pageSize) (hlen : ∀ i, (l i).length < 2 ^ 64)
    {pages : List (List R)} :
    Follows engine (fun i paging => paging.apply (l i)) pageSize pages ↔
      OffsetWalk (fullPage pageSize) l 0 0 pages := by
  have hstart : TokenFor engine "" 0 := .inl ⟨rfl, rfl⟩
  constructor
  · rintro ⟨fuel, h⟩
    exact walk_of_followTokens hsize hlen hstart h
  · intro h
    exact ⟨pages.length, followTokens_of_walk hsize hlen h hstart⟩

end

end Deltio
