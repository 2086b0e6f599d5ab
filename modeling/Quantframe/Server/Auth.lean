import Quantframe.Lib.Table
import Quantframe.Lib.Window
import Quantframe.Trader.SubTypeKeys

/-!
# Sessions, login attempts and headers

What the server keeps of the browsers that signed in, and where a request carries its tokens. Instants and durations
are nanoseconds of the monotonic clock.
-/

namespace Quantframe.Server

open Lib LogParser
open Trader (splitBy_append splitBy_of_forall splitOnce_append)

def cookieName : Text := "qf_session".toList

def cookieMaxAgeSecs : Nat := 30 * 24 * 60 * 60

/-- What the OS gives for a token. -/
abbrev Random := Vector UInt8 32

def secs (n : Nat) : Nat := n * 1000000000

/-- `hex::encode`. -/
def hexEncode (bytes : Bytes) : Text :=
  bytes.flatMap fun b => [Nat.digitChar (b.toNat / 16), Nat.digitChar (b.toNat % 16)]

/-! ### Sessions -/

structure Sessions where
  /-- A token and the instant its session ends. -/
  inner : Table (Prod.fst : Text × Nat → Text)
  ttl : Nat

namespace Sessions

def new (ttl : Nat) : Sessions := ⟨Table.empty, ttl⟩

def create (s : Sessions) (bytes : Random) (now : Nat) : Text × Sessions :=
  let token := hexEncode bytes.toList
  (token, { s with inner := s.inner.insertOrReplace (token, now + s.ttl) })

def isValid (s : Sessions) (token : Text) (now : Nat) : Bool × Sessions :=
  let inner := s.inner.keep fun e => decide (now < e.2)
  ((inner.lookup token).isSome, { s with inner })

def remove (s : Sessions) (token : Text) : Sessions := { s with inner := s.inner.delete token }

/-- A session of the token that has not ended. -/
def Lives (s : Sessions) (token : Text) (now : Nat) : Prop := ∃ e, s.inner.lookup token = some e ∧ now < e.2

variable {s : Sessions} {token : Text} {now later : Nat}

theorem not_lives_new (ttl : Nat) : ¬ (new ttl).Lives token now := by
  rintro ⟨e, he, -⟩
  cases he

theorem lives_create (bytes : Random) (at_ : Nat) :
    (s.create bytes at_).2.Lives token now ↔
      if token = hexEncode bytes.toList then now < at_ + s.ttl else s.Lives token now := by
  simp only [Lives, create, Table.lookup_insertOrReplace]
  split
  · simp
  · rfl

theorem lives_remove (gone : Text) : (s.remove gone).Lives token now ↔ token ≠ gone ∧ s.Lives token now := by
  simp only [Lives, remove, Table.lookup_delete]
  split
  · next hsame => simp [hsame]
  · next hother => simp [hother]

/-- A check drops the sessions that have ended, and no later check finds them. -/
theorem lives_isValid (asked : Text) (hlater : now ≤ later) :
    (s.isValid asked now).2.Lives token later ↔ s.Lives token later := by
  simp only [Lives, isValid, Table.lookup_keep, Option.filter_eq_some_iff, decide_eq_true_eq]
  constructor
  · rintro ⟨e, ⟨he, -⟩, hlives⟩
    exact ⟨e, he, hlives⟩
  · rintro ⟨e, he, hlives⟩
    exact ⟨e, ⟨he, Nat.lt_of_le_of_lt hlater hlives⟩, hlives⟩

theorem isValid_fst : (s.isValid token now).1 = true ↔ s.Lives token now := by
  simp only [Lives, isValid, Table.lookup_keep, Option.isSome_iff_exists, Option.filter_eq_some_iff,
    decide_eq_true_eq]

end Sessions

/-! ### Login attempts -/

/-- At most `max` login attempts per `window`, across all clients. -/
structure LoginLimiter where
  attempts : List Nat
  max : Nat
  window : Nat

namespace LoginLimiter

def new (max window : Nat) : LoginLimiter := ⟨[], max, window⟩

/-- `duration_since` is zero when the instant is later. -/
def tryAcquire (l : LoginLimiter) (now : Nat) : Bool × LoginLimiter :=
  let attempts := l.attempts.dropWhile fun t => decide (l.window < now - t)
  if l.max ≤ attempts.length then (false, { l with attempts })
  else (true, { l with attempts := attempts ++ [now] })

/-- An attempt counts for as long as the window. -/
def expiry (window : Nat) : Expiry Nat where
  expired now t := decide (window < now - t)
  later h hexpired := by
    rw [decide_eq_true_eq] at hexpired ⊢
    omega
  older h hexpired := by
    rw [decide_eq_true_eq] at hexpired ⊢
    omega

theorem tryAcquire_eq (l : LoginLimiter) (now : Nat) :
    l.tryAcquire now =
      (((expiry l.window).acquire l.max l.attempts now).1,
        { l with attempts := ((expiry l.window).acquire l.max l.attempts now).2 }) := by
  have hsame : (l.attempts.dropWhile fun t => decide (l.window < now - t)) =
      l.attempts.dropWhile ((expiry l.window).expired now) := rfl
  simp only [tryAcquire, Expiry.acquire, hsame]
  split
  · rfl
  · rfl

end LoginLimiter

/-! ### Headers -/

inductive HeaderName where
  | cookie | authorization | origin
  | other (name : String)
  deriving DecidableEq, Repr

/-- The values in the order they came. -/
structure HeaderMap where
  entries : List (HeaderName × Bytes)

namespace HeaderMap

def getAll (headers : HeaderMap) (name : HeaderName) : List Bytes :=
  (headers.entries.filter fun h => h.1 = name).map Prod.snd

def get (headers : HeaderMap) (name : HeaderName) : Option Bytes := (headers.getAll name).head?

end HeaderMap

/-- `HeaderValue::to_str`: visible ASCII and tabs. -/
def toStr (value : Bytes) : Option Text :=
  if value.all fun b => b == 9 || (32 ≤ b && b < 127) then some (value.map fun b => Char.ofNat b.toNat) else none

def sessionCookie (token : Text) : Text :=
  cookieName ++ '=' :: token ++ "; HttpOnly; SameSite=Strict; Path=/; Max-Age=".toList ++
    Nat.toDigits 10 cookieMaxAgeSecs

def clearedCookie : Text := cookieName ++ "=; HttpOnly; SameSite=Strict; Path=/; Max-Age=0".toList

def tokenFromHeaders (headers : HeaderMap) : Option Text :=
  ((((headers.getAll .cookie).filterMap toStr).flatMap (splitBy (· == ';'))).filterMap
    (fun pair => splitOnce ['='] (trim pair))).find? (fun pair => pair.1 = cookieName) |>.map Prod.snd

def eqIgnoreAsciiCase (a b : Text) : Bool := a.map Char.toLower == b.map Char.toLower

/-- The token of `Authorization: Bearer <token>`. -/
def bearerFromHeaders (headers : HeaderMap) : Option Text := do
  let value ← (headers.get .authorization).bind toStr
  let (scheme, token) ← splitOnce [' '] value
  let token := trim token
  if eqIgnoreAsciiCase scheme "bearer".toList && !token.isEmpty then some token else none

/-! ### Cookies come back as they were set -/

section Cookies

/-- A cookie as a browser keeps it: visible ASCII with no semicolon, and no `=` in the name. -/
structure Sendable (pair : Text × Text) : Prop where
  visible : ∀ c ∈ pair.1 ++ '=' :: pair.2, 33 ≤ c.toNat ∧ c.toNat < 127
  noSemicolon : ';' ∉ pair.1 ++ '=' :: pair.2
  noEquals : '=' ∉ pair.1

def cookiePair (pair : Text × Text) : Text := pair.1 ++ '=' :: pair.2

instance (pair : Text × Text) : Decidable (Sendable pair) :=
  decidable_of_iff (((pair.1 ++ '=' :: pair.2).all fun c =>
      decide (33 ≤ c.toNat) && decide (c.toNat < 127) && c != ';') = true ∧ pair.1.contains '=' = false) <| by
    simp only [List.all_eq_true, Bool.and_eq_true, decide_eq_true_eq, bne_iff_ne, List.contains_eq_mem,
      decide_eq_false_iff_not]
    constructor
    · rintro ⟨hall, hname⟩
      exact ⟨fun c hc => (hall c hc).1, fun hc => (hall _ hc).2 rfl, hname⟩
    · intro h
      exact ⟨fun c hc => ⟨h.visible c hc, fun heq => h.noSemicolon (heq ▸ hc)⟩, h.noEquals⟩

/-- `name=value; name=value`, as browsers write it. -/
def cookieText (jar : List (Text × Text)) : Text := "; ".toList.intercalate (jar.map cookiePair)

def ascii (text : Text) : Bytes := text.map fun c => UInt8.ofNat c.toNat

variable {text : Text} {pair : Text × Text} {jar : List (Text × Text)}

theorem toStr_ascii (h : ∀ c ∈ text, 32 ≤ c.toNat ∧ c.toNat < 127) : toStr (ascii text) = some text := by
  have hbyte : ∀ c ∈ text, (UInt8.ofNat c.toNat).toNat = c.toNat := by
    intro c hc
    rw [UInt8.toNat_ofNat']
    exact Nat.mod_eq_of_lt (by have := (h c hc).2; omega)
  have hall : (ascii text).all (fun b => b == 9 || (32 ≤ b && b < 127)) = true := by
    rw [ascii, List.all_map, List.all_eq_true]
    intro c hc
    simp only [Function.comp_apply, Bool.or_eq_true, Bool.and_eq_true, decide_eq_true_eq, UInt8.le_iff_toNat_le,
      UInt8.lt_iff_toNat_lt, hbyte c hc]
    exact .inr (h c hc)
  rw [toStr, if_pos hall, ascii, List.map_map]
  congr 1
  refine (List.map_congr_left fun c hc => ?_).trans (List.map_id text)
  rw [Function.comp_apply, hbyte c hc, Char.ofNat_toNat, id]

theorem not_isWhitespace_of_visible {c : Char} (h : 33 ≤ c.toNat ∧ c.toNat < 127) : isWhitespace c = false := by
  have hval : c.val.toNat = c.toNat := rfl
  simp only [isWhitespace, Bool.or_eq_false_iff, Bool.and_eq_false_iff, decide_eq_false_iff_not, beq_eq_false_iff_ne,
    ne_eq, UInt32.le_iff_toNat_le, ← UInt32.toNat_inj, hval, UInt32.toNat_ofNat]
  omega

theorem trim_cookiePair (h : Sendable pair) : trim (cookiePair pair) = cookiePair pair :=
  trim_of_forall fun c hc => not_isWhitespace_of_visible (h.visible c hc)

/-- What is found in one piece between semicolons. -/
def readPair (piece : Text) : Option (Text × Text) := splitOnce ['='] (trim piece)

variable {blank : Text}

theorem readPair_blank (hblank : blank.dropWhile isWhitespace = []) : readPair blank = none := by
  rw [readPair, trim_eq_nil_iff.mpr hblank]
  rfl

theorem readPair_cookiePair (hblank : blank.dropWhile isWhitespace = []) (h : Sendable pair) :
    readPair (blank ++ cookiePair pair) = some pair := by
  rw [readPair, trim_blank_append hblank, trim_cookiePair h]
  exact splitOnce_append h.noEquals pair.2

/-- One header gives its cookies back. -/
theorem readPair_cookieText (hblank : blank.dropWhile isWhitespace = []) (hplain : ';' ∉ blank)
    (h : ∀ pair ∈ jar, Sendable pair) :
    (splitBy (· == ';') (blank ++ cookieText jar)).filterMap readPair = jar := by
  have hpieces : ∀ {blank : Text} {pair : Text × Text}, ';' ∉ blank → Sendable pair →
      ∀ c ∈ blank ++ cookiePair pair, (c == ';') = false := by
    intro blank pair hplain hpair c hc
    rw [beq_eq_false_iff_ne]
    rintro rfl
    rcases List.mem_append.mp hc with hin | hin
    · exact hplain hin
    · exact hpair.noSemicolon hin
  induction jar generalizing blank with
  | nil =>
      have hnone : ∀ c ∈ blank, (c == ';') = false := by
        intro c hc
        rw [beq_eq_false_iff_ne]
        rintro rfl
        exact hplain hc
      rw [cookieText, List.map_nil, List.intercalate_nil, List.append_nil, splitBy_of_forall hnone,
        List.filterMap_cons_none (readPair_blank hblank), List.filterMap_nil]
  | cons pair jar ih =>
      have hpair := h pair List.mem_cons_self
      have hread := readPair_cookiePair hblank hpair
      cases jar with
      | nil =>
          rw [cookieText, List.map_singleton, List.intercalate_singleton,
            splitBy_of_forall (hpieces hplain hpair), List.filterMap_cons_some hread, List.filterMap_nil]
      | cons next jar =>
          have hrest := @ih [' '] rfl (by decide) fun pair hmem => h pair (List.mem_cons_of_mem _ hmem)
          have htext : blank ++ cookieText (pair :: next :: jar) =
              (blank ++ cookiePair pair) ++ ';' :: ([' '] ++ cookieText (next :: jar)) := by
            rw [cookieText, List.map_cons, List.map_cons, List.intercalate_cons_cons, cookieText, List.map_cons]
            simp
          rw [htext, splitBy_append (hpieces hplain hpair) rfl, List.filterMap_cons_some hread, hrest]

theorem toStr_cookieText (h : ∀ pair ∈ jar, Sendable pair) :
    toStr (ascii (cookieText jar)) = some (cookieText jar) := by
  apply toStr_ascii
  induction jar with
  | nil =>
      intro c hc
      rw [cookieText, List.map_nil, List.intercalate_nil] at hc
      cases hc
  | cons pair jar ih =>
      have hpair : ∀ c ∈ cookiePair pair, 32 ≤ c.toNat ∧ c.toNat < 127 := by
        intro c hc
        have hvisible := (h pair List.mem_cons_self).visible c hc
        omega
      cases jar with
      | nil =>
          rw [cookieText, List.map_singleton, List.intercalate_singleton]
          exact hpair
      | cons next jar =>
          rw [cookieText, List.map_cons, List.map_cons, List.intercalate_cons_cons, ← List.map_cons]
          have hgap : ∀ c ∈ [';', ' '], 32 ≤ c.toNat ∧ c.toNat < 127 :=
            List.forall_mem_cons.mpr ⟨by decide, List.forall_mem_singleton.mpr (by decide)⟩
          refine List.forall_mem_append.mpr ⟨List.forall_mem_append.mpr ⟨hpair, hgap⟩, ?_⟩
          exact ih fun pair hmem => h pair (List.mem_cons_of_mem _ hmem)

/-- A `Cookie` header: cookies as a browser writes them, or bytes that are no text to the server. -/
inductive CookieHeader where
  | jar (cookies : List (Text × Text))
  | raw (bytes : Bytes)

namespace CookieHeader

def value : CookieHeader → Bytes
  | .jar cookies => ascii (cookieText cookies)
  | .raw bytes => bytes

/-- The cookies that can be read: none where one byte of the header is not printable. -/
def cookies : CookieHeader → List (Text × Text)
  | .jar cookies => cookies
  | .raw _ => []

def Proper : CookieHeader → Prop
  | .jar cookies => ∀ pair ∈ cookies, Sendable pair
  | .raw bytes => ∃ b ∈ bytes, b ≠ 9 ∧ (b < 32 ∨ 127 ≤ b)

end CookieHeader

theorem toStr_raw {bytes : Bytes} (h : ∃ b ∈ bytes, b ≠ 9 ∧ (b < 32 ∨ 127 ≤ b)) : toStr bytes = none := by
  obtain ⟨b, hb, htab, hout⟩ := h
  refine if_neg fun hall => ?_
  have hbyte := List.all_eq_true.mp hall b hb
  simp only [Bool.or_eq_true, beq_iff_eq, htab, false_or, Bool.and_eq_true, decide_eq_true_eq] at hbyte
  rcases hout with hlow | hhigh
  · exact absurd hbyte.1 (UInt8.not_le.mpr hlow)
  · exact absurd hbyte.2 (UInt8.not_lt.mpr hhigh)

/-- However a browser spreads its cookies over headers, the server reads the first one that has the session's name;
a header with a byte that is not printable is as if it were not there. -/
theorem token_of_jars {headers : HeaderMap} {sent : List CookieHeader} (hproper : ∀ header ∈ sent, header.Proper)
    (hheaders : headers.getAll .cookie = sent.map CookieHeader.value) :
    tokenFromHeaders headers =
      ((sent.flatMap CookieHeader.cookies).find? fun pair => pair.1 = cookieName).map Prod.snd := by
  have hpairs : (((headers.getAll .cookie).filterMap toStr).flatMap (splitBy (· == ';'))).filterMap readPair =
      sent.flatMap CookieHeader.cookies := by
    rw [hheaders]
    clear hheaders
    induction sent with
    | nil => rfl
    | cons header sent ih =>
        have hrest := ih fun header hmem => hproper header (List.mem_cons_of_mem _ hmem)
        have hheader := hproper header List.mem_cons_self
        rw [List.map_cons, List.flatMap_cons]
        cases header with
        | jar cookies =>
            have hread := @readPair_cookieText cookies [] rfl List.not_mem_nil hheader
            rw [List.nil_append] at hread
            rw [CookieHeader.value, List.filterMap_cons_some (toStr_cookieText hheader), List.flatMap_cons,
              List.filterMap_append, hread, hrest]
            rfl
        | raw bytes =>
            rw [CookieHeader.value, List.filterMap_cons_none (toStr_raw hheader), hrest]
            rfl
  rw [← hpairs]
  rfl

theorem plain_digitChar {n : Nat} (h : n < 16) :
    (33 ≤ (Nat.digitChar n).toNat ∧ (Nat.digitChar n).toNat < 127) ∧ Nat.digitChar n ≠ ';' := by
  have hall : ∀ i : Fin 16, (33 ≤ (Nat.digitChar i).toNat ∧ (Nat.digitChar i).toNat < 127) ∧
      Nat.digitChar i ≠ ';' := by decide
  exact hall ⟨n, h⟩

/-- The cookie of a session is such a cookie. -/
theorem sendable_session (bytes : Bytes) : Sendable (cookieName, hexEncode bytes) := by
  have hname : Sendable (cookieName, []) := by decide +kernel
  have hall : ∀ c ∈ cookieName ++ '=' :: hexEncode bytes, (33 ≤ c.toNat ∧ c.toNat < 127) ∧ c ≠ ';' := by
    intro c hc
    rw [← List.singleton_append, ← List.append_assoc] at hc
    rcases List.mem_append.mp hc with hfront | htoken
    · exact ⟨hname.visible c hfront, fun heq => hname.noSemicolon (heq ▸ hfront)⟩
    · obtain ⟨b, -, hdigit⟩ := List.mem_flatMap.mp htoken
      have hb := b.toNat_lt
      rcases List.mem_pair.mp hdigit with rfl | rfl
      · exact plain_digitChar (by omega)
      · exact plain_digitChar (by omega)
  exact ⟨fun c hc => (hall c hc).1, fun hc => (hall _ hc).2 rfl, hname.noEquals⟩

/-- A header with an `ä` stands before the session's, and another cookie beside it. -/
theorem token_of_jars_theme :
    tokenFromHeaders ⟨[(.cookie, [110, 61, 195, 164]),
        (.cookie, ascii (cookieText [("theme".toList, "dark".toList), (cookieName, hexEncode [15])]))]⟩ =
      some "0f".toList := by
  have htheme : Sendable ("theme".toList, "dark".toList) := by decide +kernel
  have hraw : (CookieHeader.raw [110, 61, 195, 164]).Proper := ⟨195, by decide, by decide, by decide⟩
  have hjar : (CookieHeader.jar [("theme".toList, "dark".toList), (cookieName, hexEncode [15])]).Proper := by
    intro pair hpair
    rcases List.mem_pair.mp hpair with hpair | hpair
    · exact hpair ▸ htheme
    · exact hpair ▸ sendable_session [15]
  have hproper : ∀ header ∈ [CookieHeader.raw [110, 61, 195, 164],
      .jar [("theme".toList, "dark".toList), (cookieName, hexEncode [15])]], header.Proper := by
    intro header hheader
    rcases List.mem_pair.mp hheader with hheader | hheader
    · exact hheader ▸ hraw
    · exact hheader ▸ hjar
  exact (token_of_jars hproper rfl).trans (by decide +kernel)

end Cookies

end Quantframe.Server
