import Mathlib.Data.List.Basic
import Mathlib.Data.List.TakeWhile
import ProductCatalog.Broker.Address

/-!
# The grammar of queue URLs

A queue URL is put together from a scheme, `://`, a host, a slash and a path,
and the path from account segments, each with a slash behind it, the name of
the queue, and any number of slashes. `://` does not stand in the scheme, nor
a slash in the host and the name, and host and name are not empty. Account
segments may be anything.

The reader takes these URLs apart again, and no others. As `://` cannot
overlap with itself, it stands for the first time where it was put. The
grammar does not ask for a scheme: a text that begins with `://` is read as
a URL without one, although a URL is refused that has no `://` at all.

## Main definitions

* `QueueAddress.Spelling` — the parts of a queue URL; `Spelling.WellFormed`.
* `Spelling.text`, `Spelling.address` — the URL and what it leads to.

## Main results

* `QueueAddress.ofUrl_text` — a URL leads to what it was put together from.
* `QueueAddress.spelling_of_ofUrl` — only URLs of the grammar are read.
* `QueueAddress.ofUrl_exact` — what is read, and as which address.
-/

namespace ProductCatalog.QueueAddress

open Text

/-- The parts of a queue URL. -/
structure Spelling where
  scheme : List Char
  host : List Char
  accounts : List (List Char)
  name : List Char
  /-- The number of slashes behind the name. -/
  slashes : Nat
deriving Repr, DecidableEq

namespace Spelling

/-- The path of a queue URL, without the slash in front. -/
def path (p : Spelling) : List Char :=
  p.accounts.flatMap (· ++ ['/']) ++ p.name ++ List.replicate p.slashes '/'

/-- The characters of a queue URL. -/
def chars (p : Spelling) : List Char := p.scheme ++ schemeEnd ++ (p.host ++ '/' :: p.path)

/-- A queue URL. -/
def text (p : Spelling) : String := String.ofList p.chars

/-- The scheme and the host, and the name. -/
def address (p : Spelling) : QueueAddress where
  endpoint := String.ofList (p.scheme ++ schemeEnd ++ p.host)
  queue := String.ofList p.name

/-- The parts do not run into each other, and neither host nor name is missing. -/
structure WellFormed (p : Spelling) : Prop where
  scheme : ¬schemeEnd <:+: p.scheme
  host_ne_nil : p.host ≠ []
  host : '/' ∉ p.host
  name_ne_nil : p.name ≠ []
  name : '/' ∉ p.name

end Spelling

/-! ## Where a URL is cut -/

/-- An occurrence of `://` does not begin in the scheme and end behind it. -/
theorem schemeEnd_infix_append_iff (scheme : List Char) :
    schemeEnd <:+: scheme ++ schemeEnd.dropLast ↔ schemeEnd <:+: scheme := by
  refine ⟨?_, fun h => h.trans (List.prefix_append ..).isInfix⟩
  rintro ⟨before, after, h⟩
  have hBehind : schemeEnd.dropLast = [':', '/'] := rfl
  rw [hBehind] at h
  rcases after.eq_nil_or_concat with rfl | ⟨after, last, rfl⟩
  · have := congrArg (·.reverse.take 2) h
    simp [schemeEnd] at this
  · rcases after.eq_nil_or_concat with rfl | ⟨after, other, rfl⟩
    · have := congrArg (·.reverse.take 2) h
      simp [schemeEnd] at this
    · refine ⟨before, after, ?_⟩
      have hEnd : before ++ schemeEnd ++ after ++ [other, last] = scheme ++ [':', '/'] := by
        simpa using h
      exact (List.append_inj' hEnd rfl).1

/-- A URL is cut behind its scheme. -/
theorem cutFirst?_schemeEnd {cs scheme rest : List Char} :
    cutFirst? schemeEnd cs = some (scheme, rest) ↔
      scheme ++ schemeEnd ++ rest = cs ∧ ¬schemeEnd <:+: scheme := by
  rw [cutFirst?_eq_some_iff (by decide), schemeEnd_infix_append_iff]

/-- What follows the scheme is cut behind the host. -/
theorem cutFirst?_slash {cs host path : List Char} :
    cutFirst? ['/'] cs = some (host, path) ↔ host ++ '/' :: path = cs ∧ '/' ∉ host := by
  rw [cutFirst?_eq_some_iff (by decide), List.append_assoc, List.dropLast_singleton,
    List.append_nil]
  refine and_congr_right' (not_congr ?_)
  exact ⟨fun h => h.subset (List.mem_singleton_self _), fun h =>
    have ⟨before, after, hHost⟩ := List.append_of_mem h
    ⟨before, after, by rw [hHost, List.append_assoc]; rfl⟩⟩

/-! ## The last segment of a path -/

/-- Slashes behind a name are dropped. -/
theorem dropLastAll_append {front name : List Char} (hName : name ≠ []) (hSlash : '/' ∉ name)
    (n : Nat) :
    dropLastAll '/' (front ++ name ++ List.replicate n '/') = front ++ name := by
  have hSlashes : ∀ c ∈ (List.replicate n '/').reverse, (c == '/') = true := fun c hc => by
    rw [List.mem_reverse] at hc
    rw [List.eq_of_mem_replicate hc]
    rfl
  obtain ⟨init, last, rfl⟩ : ∃ init last, name = init ++ [last] :=
    ⟨_, _, (List.dropLast_append_getLast hName).symm⟩
  have hLast : last ≠ '/' := fun e => hSlash (by simp [e])
  rw [dropLastAll, List.reverse_append, List.dropWhile_append_of_pos hSlashes,
    ← List.append_assoc, List.reverse_concat, List.dropWhile_cons_of_neg (by simpa using hLast),
    ← List.reverse_concat, List.reverse_reverse]

/-- A text without a character is its own last part. -/
theorem lastPart_eq_self {c : Char} {cs : List Char} (h : c ∉ cs) : lastPart c cs = cs := by
  have hAll : ∀ d ∈ cs.reverse, (d != c) = true := fun d hd => by
    have : d ≠ c := fun e => h (e ▸ List.mem_reverse.1 hd)
    simpa using this
  rw [lastPart, List.takeWhile_eq_self_iff.2 hAll, List.reverse_reverse]

/-- The last segment of a path is the name behind the accounts. -/
theorem Spelling.WellFormed.lastSegment_path {p : Spelling} (h : p.WellFormed) :
    lastSegment p.path = p.name := by
  rw [lastSegment, path, dropLastAll_append h.name_ne_nil h.name]
  rcases p.accounts.eq_nil_or_concat with hNone | ⟨init, last, hAccounts⟩
  · rw [hNone, List.flatMap_nil, List.nil_append, lastPart_eq_self h.name]
  · rw [hAccounts, List.concat_eq_append, List.flatMap_append, List.flatMap_singleton,
      ← List.append_assoc, List.append_assoc _ ['/'] p.name]
    exact lastPart_append '/' _ _ h.name

/-- Nothing but a character stands behind the rest of a text. -/
theorem exists_replicate_of_dropLastAll (c : Char) (cs : List Char) :
    ∃ n, cs = dropLastAll c cs ++ List.replicate n c := by
  refine ⟨(cs.reverse.takeWhile (· == c)).length, ?_⟩
  have hSame : cs.reverse.takeWhile (· == c) =
      List.replicate (cs.reverse.takeWhile (· == c)).length c :=
    List.eq_replicate_iff.2 ⟨rfl, fun d hd => by simpa using List.mem_takeWhile_imp hd⟩
  rw [dropLastAll, ← List.reverse_replicate, ← hSame, ← List.reverse_append,
    List.takeWhile_append_dropWhile, List.reverse_reverse]

/-- The character does not stand in the last part, and stands in front of it. -/
theorem exists_accounts_of_lastPart (c : Char) (cs : List Char) :
    c ∉ lastPart c cs ∧
      ∃ accounts : List (List Char), cs = accounts.flatMap (· ++ [c]) ++ lastPart c cs := by
  constructor
  · rw [lastPart, List.mem_reverse]
    intro hMem
    simpa using List.mem_takeWhile_imp hMem
  · have hSplit : cs = (cs.reverse.dropWhile (· != c)).reverse ++ lastPart c cs := by
      rw [lastPart, ← List.reverse_append, List.takeWhile_append_dropWhile, List.reverse_reverse]
    cases hFront : cs.reverse.dropWhile (· != c) with
    | nil =>
      rw [hFront] at hSplit
      exact ⟨[], hSplit⟩
    | cons d front =>
      have hHead := List.head?_dropWhile_not (· != c) cs.reverse
      simp only [hFront, List.head?_cons, bne_eq_false_iff_eq] at hHead
      subst hHead
      refine ⟨[front.reverse], ?_⟩
      rw [hFront] at hSplit
      simpa using hSplit

/-! ## Reading a URL -/

/-- A URL leads to what it was put together from. -/
theorem ofUrl_text {p : Spelling} (h : p.WellFormed) : ofUrl p.text = .ok p.address := by
  have hScheme : cutFirst? schemeEnd p.chars = some (p.scheme, p.host ++ '/' :: p.path) :=
    cutFirst?_schemeEnd.2 ⟨rfl, h.scheme⟩
  have hHost : cutFirst? ['/'] (p.host ++ '/' :: p.path) = some (p.host, p.path) :=
    cutFirst?_slash.2 ⟨rfl, h.host⟩
  rw [ofUrl, Spelling.text, String.toList_ofList, hScheme]
  simp only [hHost, h.lastSegment_path, List.isEmpty_iff, h.host_ne_nil, h.name_ne_nil, if_false]
  rfl

/-- A text that is read is put together from parts, and leads to their address. -/
theorem spelling_of_ofUrl {url : String} {a : QueueAddress} (h : ofUrl url = .ok a) :
    ∃ p : Spelling, p.WellFormed ∧ p.text = url ∧ p.address = a := by
  unfold ofUrl at h
  split at h
  · cases h
  · next scheme rest hScheme =>
    split at h
    · cases h
    · next host path hHost =>
      split at h
      · cases h
      · next hHostNe =>
        split at h
        · cases h
        · next hNameNe =>
          obtain ⟨hUrl, hNoEnd⟩ := cutFirst?_schemeEnd.1 hScheme
          obtain ⟨hRest, hNoSlash⟩ := cutFirst?_slash.1 hHost
          obtain ⟨n, hPath⟩ := exists_replicate_of_dropLastAll '/' path
          obtain ⟨hName, accounts, hFront⟩ := exists_accounts_of_lastPart '/' (dropLastAll '/' path)
          refine ⟨⟨scheme, host, accounts, lastSegment path, n⟩, ?_, ?_, ?_⟩
          · exact ⟨hNoEnd, by simpa using hHostNe, hNoSlash,
              by simpa using hNameNe, hName⟩
          · have hWhole : accounts.flatMap (· ++ ['/']) ++ lastSegment path ++
                List.replicate n '/' = path := by
              rw [lastSegment, ← hFront]
              exact hPath.symm
            rw [Spelling.text, Spelling.chars, Spelling.path, hWhole, hRest, hUrl,
              String.ofList_toList]
          · exact Except.ok.inj h

/-- The scheme is missing if and only if the URL begins with `://`. -/
theorem Spelling.WellFormed.scheme_eq_nil_iff {p : Spelling} (h : p.WellFormed) :
    p.scheme = [] ↔ schemeEnd <+: p.text.toList := by
  have hChars : cutFirst? schemeEnd p.chars = some (p.scheme, p.host ++ '/' :: p.path) :=
    cutFirst?_schemeEnd.2 ⟨rfl, h.scheme⟩
  rw [text, String.toList_ofList]
  constructor
  · intro hNil
    rw [chars, hNil, List.nil_append]
    exact List.prefix_append ..
  · rintro ⟨rest, hRest⟩
    have hEmpty : cutFirst? schemeEnd p.chars = some ([], rest) :=
      cutFirst?_schemeEnd.2 ⟨hRest, by decide⟩
    rw [hChars] at hEmpty
    exact (Prod.mk.inj (Option.some.inj hEmpty)).1

/-- Every URL that is put together from parts leads to the address that it was put together from,
and no other text leads anywhere. A URL that does not begin with `://` has a scheme. -/
theorem ofUrl_exact (url : String) :
    (∀ p : Spelling, p.WellFormed → p.text = url → ofUrl url = .ok p.address) ∧
    (∀ a, ofUrl url = .ok a ↔
      ∃ p : Spelling, p.WellFormed ∧ p.text = url ∧ p.address = a) ∧
    (¬schemeEnd <+: url.toList → ∀ a, ofUrl url = .ok a ↔
      ∃ p : Spelling, p.WellFormed ∧ p.scheme ≠ [] ∧ p.text = url ∧ p.address = a) := by
  have hExact : ∀ a, ofUrl url = .ok a ↔
      ∃ p : Spelling, p.WellFormed ∧ p.text = url ∧ p.address = a := by
    refine fun a => ⟨spelling_of_ofUrl, ?_⟩
    rintro ⟨p, h, rfl, rfl⟩
    exact ofUrl_text h
  refine ⟨fun p h hText => (hExact _).2 ⟨p, h, hText, rfl⟩, hExact, fun hStart a =>
    (hExact a).trans ?_⟩
  constructor
  · rintro ⟨p, h, rfl, rfl⟩
    exact ⟨p, h, fun hNil => hStart (h.scheme_eq_nil_iff.1 hNil), rfl, rfl⟩
  · rintro ⟨p, h, -, rfl, rfl⟩
    exact ⟨p, h, rfl, rfl⟩

/-- A URL with account segments of which one is empty and one has `://` in it, and two slashes at
the end. -/
theorem ofUrl_exact_of_accounts :
    ofUrl "https://localhost:4566/000//http://x/products//" =
        .ok ⟨"https://localhost:4566", "products"⟩ ∧
      ∃ p : Spelling, p.WellFormed ∧ p.scheme ≠ [] ∧
        p.text = "https://localhost:4566/000//http://x/products//" ∧
        p.address = ⟨"https://localhost:4566", "products"⟩ := by
  let p : Spelling := ⟨"https".toList, "localhost:4566".toList,
    ["000".toList, [], "http://x".toList], "products".toList, 2⟩
  have hForm : p.WellFormed := by
    refine ⟨?_, ?_, ?_, ?_, ?_⟩ <;> decide
  have hRead : ofUrl "https://localhost:4566/000//http://x/products//" =
      .ok ⟨"https://localhost:4566", "products"⟩ := (ofUrl_exact _).1 p hForm rfl
  exact ⟨hRead, ((ofUrl_exact _).2.2 (by decide) _).1 hRead⟩

/-- A text that begins with `://` is read although it has no scheme. -/
theorem ofUrl_without_scheme :
    ofUrl "://host/q" = .ok ⟨"://host", "q"⟩ ∧
      ¬∃ p : Spelling, p.WellFormed ∧ p.scheme ≠ [] ∧ p.text = "://host/q" := by
  refine ⟨rfl, ?_⟩
  rintro ⟨p, h, hScheme, hText⟩
  refine hScheme (h.scheme_eq_nil_iff.2 ?_)
  rw [hText]
  decide

end ProductCatalog.QueueAddress
