import CodeOutline.Proofs.Http.Target

/-! Addresses that go on behind that of a service: what the service's own address settles, and what is left to follow. -/

namespace CodeOutline.Http.Url

open Text

variable {scheme rest : List Char}

/-- What follows the server of an address. -/
def behindServer (cs : List Char) : List Char := (cs.dropWhile isSlash).drop (serverOf cs).length

lemma parse?_eq_of_cut {address : String} (hcut : cutFirst? ':' (cleaned address.toList) = some (scheme, rest)) :
    parse? address = if isWebScheme scheme && isAuthority (serverOf rest) then
        some ⟨(String.ofList scheme).toLower, serverOf rest, resolve [] (segments ((pathOf (behindServer rest)).drop 1)),
          queryOf (behindServer rest)⟩
      else none := by
  rw [cleaned] at hcut
  simp only [parse?, hcut, Option.bind_eq_bind, Option.bind_some]
  change (if !isWebScheme scheme then none else if !isAuthority (serverOf rest) then none else some _) = _
  cases isWebScheme scheme with
  | false => rfl
  | true =>
    cases isAuthority (serverOf rest) with
    | false => rfl
    | true => rfl

section Behind

variable {front : List Char} (hfragment : '#' ∉ front) (hquery : '?' ∉ front)

include hfragment in
lemma takeWhile_fragment_append (after : List Char) :
    (front ++ after).takeWhile (· != '#') = front ++ after.takeWhile (· != '#') :=
  List.takeWhile_append_of_pos fun _ hc => bne_iff_ne.mpr fun heq => hfragment (heq ▸ hc)

include hfragment hquery

lemma pathOf_append (after : List Char) : pathOf (front ++ after) = front ++ pathOf after := by
  rw [pathOf, takeWhile_fragment_append hfragment]
  exact List.takeWhile_append_of_pos fun _ hc => bne_iff_ne.mpr fun heq => hquery (heq ▸ hc)

lemma queryOf_append (after : List Char) : queryOf (front ++ after) = queryOf after := by
  rw [queryOf, takeWhile_fragment_append hfragment, queryOf]
  induction front with
  | nil => rfl
  | cons c front ih =>
    rw [List.mem_cons, not_or] at hfragment hquery
    rw [List.cons_append, cutFirst?, if_neg (Ne.symm hquery.1), Option.map_map, ← ih hfragment.2 hquery.2]
    rfl

end Behind

lemma exists_segments_drop_one (front : List Char) :
    ∃ before, ∀ after, segments ((front ++ '/' :: after).drop 1) = before ++ segments after := by
  cases front with
  | nil => exact ⟨[], fun _ => rfl⟩
  | cons c front =>
    -- a path begins with its slash, which is the one that is dropped
    refine ⟨segments front, fun after => ?_⟩
    rw [List.cons_append, List.drop_one, List.tail_cons, segments, List.map_append, List.map_cons, if_neg (by decide),
      splitAt_append_mark, segments, segments]

section Service

variable {server : List Char} (hserver : server.dropWhile isSlash ≠ [])

include hserver

lemma dropWhile_isSlash_append (after : List Char) :
    (server ++ '/' :: after).dropWhile isSlash = server.dropWhile isSlash ++ '/' :: after := by
  rw [List.dropWhile_append, if_neg (by simpa using hserver)]

lemma serverOf_append_slash (after : List Char) : serverOf (server ++ '/' :: after) = serverOf server := by
  rw [serverOf, dropWhile_isSlash_append hserver, takeWhile_server_append, serverOf]

lemma behindServer_append_slash (after : List Char) :
    behindServer (server ++ '/' :: after) = behindServer server ++ '/' :: after := by
  have hlength : (serverOf server).length ≤ (server.dropWhile isSlash).length := (List.takeWhile_prefix _).length_le
  rw [behindServer, serverOf_append_slash hserver, dropWhile_isSlash_append hserver, List.drop_append_of_le_length hlength,
    behindServer]

variable (hfragment : '#' ∉ server) (hquery : '?' ∉ server)

include hfragment hquery

lemma queryOf_behindServer (after : List Char) : queryOf (behindServer (server ++ '/' :: after)) = queryOf after := by
  have hsub : behindServer server ⊆ server := fun _ hc => (List.dropWhile_suffix _).subset (List.mem_of_mem_drop hc)
  have hslash : queryOf ('/' :: after) = queryOf after := queryOf_append (by decide : '#' ∉ ['/']) (by decide) after
  rw [behindServer_append_slash hserver, queryOf_append (mt (@hsub _) hfragment) (mt (@hsub _) hquery), hslash]

/-- A path behind that of a service is followed from where the service's own path leads. -/
lemma exists_resolve_behindServer : ∃ passed, (∀ segment ∈ passed, '?' ∉ segment) ∧ ∀ after,
    resolve [] (segments ((pathOf (behindServer (server ++ '/' :: after))).drop 1)) = resolve passed (segments (pathOf after)) := by
  have hsub : behindServer server ⊆ server := fun _ hc => (List.dropWhile_suffix _).subset (List.mem_of_mem_drop hc)
  obtain ⟨before, hbefore⟩ := exists_segments_drop_one (behindServer server)
  refine ⟨before.foldl follow [], ?_, fun after => ?_⟩
  · exact query_not_mem_foldl_follow (by simp) before
  have hslash : pathOf ('/' :: after) = '/' :: pathOf after := rfl
  have hne : segments (pathOf after) ≠ [] := splitAt_ne_nil _ _
  rw [behindServer_append_slash hserver, pathOf_append (mt (@hsub _) hfragment) (mt (@hsub _) hquery), hslash, hbefore,
    resolve_append hne]

end Service

lemma dropWhile_isSlash_ne_nil {server : List Char} (h : isAuthority (serverOf (server ++ ['/'])) = true) :
    server.dropWhile isSlash ≠ [] := by
  intro hnone
  have hserver : serverOf (server ++ ['/']) = [] := by
    rw [serverOf, List.dropWhile_append, if_pos (by simp [hnone])]
    rfl
  rw [hserver] at h
  exact absurd h (by decide)

lemma subset_of_cut_opening {start : List Char} (h : cutFirst? ':' (opening start) = some (scheme, rest)) : rest ⊆ start := by
  intro c hc
  have hopening : c ∈ opening start := by
    rw [cutFirst?_eq_some h]
    simp [hc]
  exact (List.dropWhile_suffix _).subset (List.mem_filter.mp hopening).1

lemma parse?_behind {start : String} {home : Url} (hhome : parse? (start ++ "/") = some home)
    (hfragment : '#' ∉ start.toList) (hquery : '?' ∉ start.toList) :
    ∃ passed, home.path = passed.reverse ++ [[]] ∧ (∀ segment ∈ passed, '?' ∉ segment) ∧ ∀ rest : String, parse? (start ++ "/" ++ rest) =
      some ⟨home.scheme, home.authority, resolve passed (segments (pathOf (ending rest.toList))), queryOf (ending rest.toList)⟩ := by
  have hclean : ∀ rest : String, cleaned (start ++ "/" ++ rest).toList = opening start.toList ++ '/' :: ending rest.toList := by
    intro rest
    rw [← cleaned_append (by decide)]
    simp
  have hempty : cleaned (start ++ "/").toList = opening start.toList ++ ['/'] := by
    have hrest := hclean ""
    rw [String.append_empty] at hrest
    exact hrest
  have hnamed : namesServer (opening start.toList ++ ['/']) = true := by
    rw [← hempty, ← isSome_parse?, hhome, Option.isSome_some]
  cases hcut : cutFirst? ':' (opening start.toList) with
  | none => simp [namesServer_slash hcut] at hnamed
  | some parts =>
    obtain ⟨scheme, server⟩ := parts
    have hcuts : ∀ after, cutFirst? ':' (opening start.toList ++ '/' :: after) = some (scheme, server ++ '/' :: after) := by
      intro after
      rw [cutFirst?_append_slash, hcut]
    simp only [namesServer, hcuts] at hnamed
    have hserver : server.dropWhile isSlash ≠ [] := dropWhile_isSlash_ne_nil (Bool.and_eq_true_iff.mp hnamed).2
    have hfragment' : '#' ∉ server := fun hmem => hfragment (subset_of_cut_opening hcut hmem)
    have hquery' : '?' ∉ server := fun hmem => hquery (subset_of_cut_opening hcut hmem)
    obtain ⟨passed, hmark, hpassed⟩ := exists_resolve_behindServer hserver hfragment' hquery'
    have hparse : ∀ address after, cleaned address.toList = opening start.toList ++ '/' :: after → parse? address =
        some ⟨(String.ofList scheme).toLower, serverOf server, resolve passed (segments (pathOf after)), queryOf after⟩ := by
      intro address after haddress
      rw [serverOf_append_slash hserver] at hnamed
      rw [parse?_eq_of_cut (haddress ▸ hcuts after), serverOf_append_slash hserver, if_pos hnamed, hpassed,
        queryOf_behindServer hserver hfragment' hquery']
    obtain rfl := Option.some.inj (hhome.symm.trans (hparse _ [] hempty))
    refine ⟨passed, ?_, hmark, fun rest => hparse _ _ (hclean rest)⟩
    have hlast : ¬IsDots [] := by simp [IsDots, undot]
    change resolve passed [[]] = _
    rw [resolve_of_not_isDots (by simpa using hlast)]
    rfl

end CodeOutline.Http.Url
