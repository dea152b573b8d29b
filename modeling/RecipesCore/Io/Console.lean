import RecipesCore.Io.Report
import RecipesCore.Logic.Printing
import RecipesCore.Types.DateStrings

/-!
# The console report

`PrintProducts` and `PrintRecipes` write lines for a person, and nothing in the program reads them
back. They can be read back all the same: as long as no name breaks its line, the text tells every
product and recipe it was printed for, with all that the console shows of it.
-/

namespace RecipesCore.Io

open RecipesCore.Types RecipesCore.Logic

/-! ## Printing -/

/-- `std::println(out, …)`. -/
def println (text : List Char) : List Char := text ++ ['\n']

/-- A number behind its sign: `{}` for width 1, `%Y` for width 4. -/
def signed (width : Nat) (n : Int) : List Char :=
  (if n < 0 then ['-'] else []) ++ zeroPadded width n.natAbs

/-- `{:%d-%m-%Y}`. -/
def dayMonthYear (date : SysDays) : List Char :=
  let ymd := YearMonthDay.ofSysDays date
  zeroPadded 2 ymd.day ++ (['-'] ++ (zeroPadded 2 ymd.month ++ (['-'] ++ signed 4 ymd.year)))

/-- What stands behind `Manufacture: ` and `Expiration: `. -/
def dateOrNotSet : Option SysDays → List Char
  | some date => dayMonthYear date
  | none => "not set".toList

/-- `Product::IsFresh`. The clock says `today`, and the day does not change during a report. -/
def isFresh (today : SysDays) (product : Product) : Bool :=
  match product.dates.expiration with
  | none => true
  | some expiration => today ≤ expiration

section

variable (today : SysDays)

/-- The body of the loop in `PrintProducts`. -/
def printProduct (product : Product) : List Char :=
  println ("Name: ".toList ++ product.name.toList) ++
  (println ("Amount: ".toList ++ (signed 1 product.amount.toInt ++
    product.dimension.getDimensionInString.toList)) ++
  (println ("Manufacture: ".toList ++ dateOrNotSet product.dates.manufacture) ++
  (println ("Expiration: ".toList ++ dateOrNotSet product.dates.expiration) ++
  ((if product.dates.expiration.isSome then
      println ("Fresh: ".toList ++ if isFresh today product then "Yes".toList else "No".toList)
    else []) ++
  println "------------------------".toList))))

def printProducts (products : List Product) : List Char :=
  if products.isEmpty then println "No products to display".toList
  else products.flatMap (printProduct today)

/-- The body of the loop in `PrintRecipes`. -/
def printRecipe (isFullInfo : Bool) (recipe : Recipe) : List Char :=
  println ("Name: ".toList ++ recipe.name.toList) ++
  if isFullInfo then println "Ingredients:".toList ++ printProducts today recipe.ingredients
  else println ("Ingredients count: ".toList ++ signed 1 recipe.ingredients.length) ++
    println "------------------------".toList

def printRecipes (isFullInfo : Bool) (recipes : List Recipe) : List Char :=
  if recipes.isEmpty then println "No recipes to display".toList
  else recipes.flatMap (printRecipe today isFullInfo)

/-- The formats with the console's own texts. -/
def consoleFormats (formats : Formats) : Formats :=
  { formats with
    printProducts := fun products => String.ofList (printProducts today products)
    printRecipes := fun recipes isFullInfo =>
      String.ofList (printRecipes today isFullInfo recipes) }

end

/-! ## What is shown -/

/-- All but the id. -/
def shownProduct (product : Product) : Product := { product with id := none }

/-- The name, and the ingredients or their number. -/
def shownRecipe (isFullInfo : Bool) (recipe : Recipe) : String × (List Product ⊕ Nat) :=
  (recipe.name, if isFullInfo then .inl (recipe.ingredients.map shownProduct)
    else .inr recipe.ingredients.length)

/-- What the console shows of the items. -/
inductive Shown where
  | products (products : List Product)
  | recipes (recipes : List (String × (List Product ⊕ Nat)))
  deriving DecidableEq, Repr

def Items.shown (isFullInfo : Bool) : Items → Shown
  | .products items => .products (items.map shownProduct)
  | .recipes items => .recipes (items.map (shownRecipe isFullInfo))

/-- The name stays on its line, the dimension has a name, and the dates are in the calendar. -/
structure PrintableProduct (product : Product) : Prop where
  name : '\n' ∉ product.name.toList
  dimension : product.dimension.IsDeclared
  dates : product.dates.Each Representable

structure PrintableRecipe (recipe : Recipe) : Prop where
  name : '\n' ∉ recipe.name.toList
  ingredients : ∀ product ∈ recipe.ingredients, PrintableProduct product

def Items.Printable : Items → Prop
  | .products items => ∀ product ∈ items, PrintableProduct product
  | .recipes items => ∀ recipe ∈ items, PrintableRecipe recipe

/-! ## Reading numbers and dates -/

section

variable {n width least : Nat} {rest : List Char} {amount : Int}

theorem readUnsigned_wide (h : (zeroPadded width n).length ≤ least) (hrest : EndsNumber rest) :
    readUnsigned least (zeroPadded width n ++ rest) = some (n, rest) := by
  rw [zeroPadded_nonneg width (Int.natCast_nonneg n), Int.natAbs_natCast] at *
  rw [List.length_append, List.length_replicate] at h
  exact readUnsigned_padded h hrest

theorem readSigned_wide (h : (zeroPadded width amount.natAbs).length ≤ least)
    (hrest : EndsNumber rest) :
    readSigned least (signed width amount ++ rest) = some (amount, rest) := by
  rw [signed]
  split
  · next hneg =>
      have habs : -(amount.natAbs : Int) = amount := by omega
      rw [List.singleton_append, List.cons_append, readSigned_minus, readUnsigned_wide h hrest]
      exact congrArg (fun n => some (n, rest)) habs
  · next hpos =>
      have habs : (amount.natAbs : Int) = amount := by omega
      have hread := readUnsigned_wide h hrest
      rw [zeroPadded_nonneg width (Int.natCast_nonneg _)] at hread ⊢
      rw [List.nil_append, readSigned_digits padded_ne_nil padded_isDigit, hread]
      exact congrArg (fun n => some (n, rest)) habs

end

theorem tells_zeroPadded (width : Nat) :
    Tells EndsNumber (fun _ => True) (fun n : Nat => zeroPadded width n) id :=
  tells_of_read fun n _ _ hrest =>
    ⟨(zeroPadded width n).length, fun _ hwidth => readUnsigned_wide hwidth hrest⟩

theorem tells_signed (width : Nat) : Tells EndsNumber (fun _ => True) (signed width) id :=
  tells_of_read fun n _ _ hrest =>
    ⟨(zeroPadded width n.natAbs).length, fun _ hwidth => readSigned_wide hwidth hrest⟩

theorem endsNumber_newline {rest : List Char} : EndsNumber ('\n' :: rest) := by
  intro c more h
  cases h
  rfl

theorem tells_dayMonthYear : Tells EndsNumber Representable dayMonthYear id := by
  have hday : Tells EndsNumber Representable
      (fun date => zeroPadded 2 (YearMonthDay.ofSysDays date).day) fun date =>
        (YearMonthDay.ofSysDays date).day :=
    (tells_zeroPadded 2).comp fun _ _ => trivial
  have hmonth : Tells EndsNumber Representable
      (fun date => zeroPadded 2 (YearMonthDay.ofSysDays date).month) fun date =>
        (YearMonthDay.ofSysDays date).month :=
    (tells_zeroPadded 2).comp fun _ _ => trivial
  have hyear : Tells EndsNumber Representable
      (fun date => signed 4 (YearMonthDay.ofSysDays date).year) fun date =>
        (YearMonthDay.ofSysDays date).year :=
    (tells_signed 4).comp fun _ _ => trivial
  have hdate := hday.append (((hmonth.append (hyear.after ['-'])
    fun _ _ _ _ => endsNumber_dash).after ['-'])) fun _ _ _ _ => endsNumber_dash
  refine hdate.read fun date date' h h' heq => ?_
  obtain ⟨hd, hm, hy⟩ := Prod.mk.inj heq |>.imp_right Prod.mk.inj
  calc date = (YearMonthDay.ofSysDays date).toSysDays := h.ofSysDays.2.symm
    _ = (YearMonthDay.ofSysDays date').toSysDays := by
      simp only [YearMonthDay.toSysDays, hd, hm, hy]
    _ = date' := h'.ofSysDays.2

/-! ## Reading the report -/

theorem println_append (text more : List Char) : println (text ++ more) = text ++ println more :=
  List.append_assoc _ _ _

/-- A date or its absence, before the end of the line. -/
theorem tells_dateOrNotSet : Tells EndsNumber (fun date => ∀ d ∈ date, Representable d)
    dateOrNotSet id := by
  -- A date begins with a digit.
  have hdigit : ∀ date rest more, dayMonthYear date ++ rest ≠ "not set".toList ++ more := by
    intro date rest more heq
    obtain ⟨tail, htail, hends⟩ : ∃ tail, dayMonthYear date ++ rest =
        zeroPadded 2 (YearMonthDay.ofSysDays date).day ++ tail ∧ EndsNumber tail :=
      ⟨_, List.append_assoc _ _ _, endsNumber_dash⟩
    have hread : readUnsigned _ (zeroPadded 2 (YearMonthDay.ofSysDays date).day ++ tail) = _ :=
      readUnsigned_wide (Nat.le_succ _) hends
    rw [← htail, heq] at hread
    cases hread
  intro a b rest rest' hrest hrest' ha hb heq
  cases a with
  | none =>
      cases b with
      | none => exact ⟨rfl, List.append_cancel_left heq⟩
      | some date => exact absurd heq.symm (hdigit date _ _)
  | some date =>
      cases b with
      | none => exact absurd heq (hdigit date _ _)
      | some date' =>
          obtain ⟨hdate, hends⟩ := tells_dayMonthYear hrest hrest' (ha date rfl) (hb date' rfl) heq
          exact ⟨congrArg some hdate, hends⟩

section

variable {today : SysDays} {isFullInfo : Bool} {R : List Char → Prop}

theorem tells_name {α : Type} {P : α → Prop} {name : α → String}
    (h : ∀ a, P a → '\n' ∉ (name a).toList) :
    Tells R P (fun a => println ("Name: ".toList ++ (name a).toList)) name := by
  refine tells_until (fun a ha => ?_) fun a b _ _ heq => ?_
  · simpa using h a ha
  · exact String.toList_inj.mp (List.append_cancel_left heq)

theorem tells_amount : Tells R PrintableProduct
    (fun product => println ("Amount: ".toList ++ (signed 1 product.amount.toInt ++
      product.dimension.getDimensionInString.toList)))
    fun product => (product.amount, product.dimension) := by
  have hamount : Tells EndsNumber PrintableProduct
      (fun product => signed 1 product.amount.toInt) fun product => product.amount.toInt :=
    (tells_signed 1).comp fun _ _ => trivial
  have hdimension : Tells R PrintableProduct
      (fun product => println product.dimension.getDimensionInString.toList)
      fun product => product.dimension := by
    have hline : ∀ d ∈ Dimension.enumerators, '\n' ∉ d.getDimensionInString.toList := by decide
    have hunit : ∀ d ∈ Dimension.enumerators, ∀ d' ∈ Dimension.enumerators,
        d.getDimensionInString.toList = d'.getDimensionInString.toList → d = d' := by decide
    exact tells_until (fun product h => hline _ h.dimension) fun product product' h h' heq =>
      hunit _ h.dimension _ h'.dimension heq
  have hboth := (hamount.append hdimension fun product rest h _ => ?_).after "Amount: ".toList
  · have hline : Tells R PrintableProduct _ fun product => (product.amount, product.dimension) :=
      hboth.read fun product product' _ _ heq =>
        Prod.ext (Int32.toInt_inj.mp (Prod.mk.inj heq).1) (Prod.mk.inj heq).2
    simpa only [println_append] using hline
  · -- No unit begins with a digit.
    have hunit : ∀ d ∈ Dimension.enumerators,
        (d.getDimensionInString.toList.head?.any fun c => !c.isDigit) = true := by decide
    obtain ⟨c, hhead, hc⟩ := (Option.any_eq_true _ _).mp (hunit _ h.dimension)
    obtain ⟨unit, hunit⟩ := List.head?_eq_some_iff.mp hhead
    intro c' more heq
    rw [hunit] at heq
    cases heq
    simpa using hc

theorem tells_date (label : List Char) {date : Product → Option SysDays}
    (h : ∀ product, PrintableProduct product → ∀ d ∈ date product, Representable d) :
    Tells R PrintableProduct (fun product => println (label ++ dateOrNotSet (date product)))
      date := by
  have hnewline : Tells R PrintableProduct (fun _ => ['\n']) fun _ => () :=
    tells_fixed fun _ _ _ _ => rfl
  have hline := ((tells_dateOrNotSet.comp h).append hnewline
    fun _ _ _ _ => endsNumber_newline).after label
  have htold : Tells R PrintableProduct _ date := hline.read fun _ _ _ _ heq => (Prod.mk.inj heq).1
  simpa only [println, List.append_assoc] using htold

theorem tells_printProduct : Tells R PrintableProduct (printProduct today) shownProduct := by
  have hname : Tells (fun _ => True) PrintableProduct _ Product.name :=
    tells_name fun _ h => h.name
  have hmanufacture : Tells (fun _ => True) PrintableProduct _ _ :=
    tells_date "Manufacture: ".toList fun _ h => h.dates.1
  have hexpiration : Tells (fun _ => True) PrintableProduct _ _ :=
    tells_date "Expiration: ".toList fun _ h => h.dates.2
  -- On one day the expiration date says whether a product is fresh.
  have hfresh : ∀ d, Tells R
      (fun product => PrintableProduct product ∧ product.dates.expiration = d)
      (fun product => (if product.dates.expiration.isSome then
          println ("Fresh: ".toList ++ if isFresh today product then "Yes".toList else "No".toList)
        else []) ++ println "------------------------".toList) fun _ => () :=
    fun d => tells_fixed fun product product' h h' => by simp only [isFresh, h.2, h'.2]
  have hproduct := hname.next (tells_amount.next (hmanufacture.next (hexpiration.bind hfresh
    fun _ _ _ _ => trivial)))
  refine hproduct.read fun product product' _ _ heq => ?_
  obtain ⟨name, amount, dimension, ⟨manufacture, expiration⟩, id⟩ := product
  obtain ⟨name', amount', dimension', ⟨manufacture', expiration'⟩, id'⟩ := product'
  cases heq
  rfl

/-- A product and another text of which the first line is a name differ in the second line. -/
theorem printProduct_ne {product : Product} {name : String} {second more rest : List Char}
    (h : PrintableProduct product) (hname : '\n' ∉ name.toList)
    (hsecond : ∀ rest amount, second ++ rest ≠ "Amount: ".toList ++ amount) :
    println ("Name: ".toList ++ name.toList) ++ second ++ rest ≠
      printProduct today product ++ more := by
  intro heq
  rw [printProduct, List.append_assoc, List.append_assoc, List.append_assoc] at heq
  have hnames : Tells (fun _ => True) (fun name : String => '\n' ∉ name.toList) _ id :=
    tells_name fun _ h => h
  have hlines := (hnames trivial trivial hname h.name heq).2
  rw [println, List.append_assoc, List.append_assoc] at hlines
  exact hsecond _ _ hlines

theorem tells_printProducts : Tells (Stops PrintableProduct (printProduct today))
    (fun products => ∀ product ∈ products, PrintableProduct product) (printProducts today)
    (List.map shownProduct) := by
  have hproduct : Tells (fun _ => True) PrintableProduct (printProduct today) shownProduct :=
    tells_printProduct
  have hnothing : ∀ rest, Stops PrintableProduct (printProduct today)
      (println "No products to display".toList ++ rest) := by
    intro rest product _ more heq
    cases heq
  exact fun _ _ _ _ hrest hrest' =>
    hproduct.listing (fun _ _ _ => trivial) hnothing ⟨trivial, hrest⟩ ⟨trivial, hrest'⟩

/-- The list of ingredients ends where the next recipe begins. -/
theorem stops_printRecipe {recipe : Recipe} (h : PrintableRecipe recipe) (more : List Char) :
    Stops PrintableProduct (printProduct today) (printRecipe today isFullInfo recipe ++ more) := by
  intro product hproduct more'
  refine printProduct_ne hproduct h.name fun rest amount heq => ?_
  cases isFullInfo <;> cases heq

theorem tells_recipeName : Tells R PrintableRecipe
    (fun recipe => println ("Name: ".toList ++ recipe.name.toList)) Recipe.name :=
  tells_name fun _ h => h.name

theorem tells_printRecipe : Tells (Stops PrintableProduct (printProduct today)) PrintableRecipe
    (printRecipe today isFullInfo) (shownRecipe isFullInfo) := by
  cases isFullInfo with
  | true =>
      have hingredients : Tells (Stops PrintableProduct (printProduct today)) PrintableRecipe
          (fun recipe => printProducts today recipe.ingredients)
          fun recipe => recipe.ingredients.map shownProduct :=
        tells_printProducts.comp fun _ h => h.ingredients
      have hlines := tells_recipeName.next (hingredients.after (println "Ingredients:".toList))
      exact hlines.read fun recipe recipe' _ _ heq =>
        Prod.ext (Prod.mk.inj heq).1 (congrArg Sum.inl (Prod.mk.inj heq).2)
  | false =>
      have hcount : Tells EndsNumber PrintableRecipe
          (fun recipe => signed 1 recipe.ingredients.length)
          fun recipe => (recipe.ingredients.length : Int) :=
        (tells_signed 1).comp fun _ _ => trivial
      have hend : Tells (Stops PrintableProduct (printProduct today)) PrintableRecipe
          (fun _ => '\n' :: println "------------------------".toList) fun _ => () :=
        tells_fixed fun _ _ _ _ => rfl
      have hlines := tells_recipeName.next ((hcount.append hend fun _ _ _ _ => endsNumber_newline).after
        "Ingredients count: ".toList)
      have hprint : printRecipe today false = fun recipe =>
          println ("Name: ".toList ++ recipe.name.toList) ++ ("Ingredients count: ".toList ++
            (signed 1 recipe.ingredients.length ++
              '\n' :: println "------------------------".toList)) := by
        funext recipe
        simp [printRecipe, println]
      rw [hprint]
      exact hlines.read fun recipe recipe' _ _ heq => Prod.ext (Prod.mk.inj heq).1
        (congrArg Sum.inr (Int.ofNat.inj (Prod.mk.inj (Prod.mk.inj heq).2).1))

theorem tells_printRecipes : Tells (fun rest => Stops PrintableProduct (printProduct today) rest ∧
      Stops PrintableRecipe (printRecipe today isFullInfo) rest)
    (fun recipes => ∀ recipe ∈ recipes, PrintableRecipe recipe) (printRecipes today isFullInfo)
    (List.map (shownRecipe isFullInfo)) := by
  have hnothing : ∀ rest, Stops PrintableRecipe (printRecipe today isFullInfo)
      (println "No recipes to display".toList ++ rest) := by
    intro rest recipe _ more heq
    cases isFullInfo <;> cases heq
  exact tells_printRecipe.listing (fun _ more h => stops_printRecipe h more) hnothing

/-! ## The report and what it shows -/

theorem printProducts_congr {products products' : List Product}
    (h : products.map shownProduct = products'.map shownProduct) :
    printProducts today products = printProducts today products' := by
  have hprint : ∀ product product', shownProduct product = shownProduct product' →
      printProduct today product = printProduct today product' := by
    intro product product' heq
    -- the id is not printed
    show printProduct today (shownProduct product) = printProduct today (shownProduct product')
    rw [heq]
  exact listing_eq_of_map_eq hprint h

theorem printRecipe_congr {recipe recipe' : Recipe}
    (h : shownRecipe isFullInfo recipe = shownRecipe isFullInfo recipe') :
    printRecipe today isFullInfo recipe = printRecipe today isFullInfo recipe' := by
  obtain ⟨hname, hingredients⟩ := Prod.mk.inj h
  cases isFullInfo with
  | true =>
      rw [printRecipe, printRecipe, hname, if_pos rfl, if_pos rfl,
        printProducts_congr (Sum.inl.inj hingredients)]
  | false =>
      have hlength : recipe.ingredients.length = recipe'.ingredients.length :=
        Sum.inr.inj hingredients
      rw [printRecipe, printRecipe, hname, if_neg Bool.false_ne_true, if_neg Bool.false_ne_true,
        hlength]

theorem printRecipes_congr {recipes recipes' : List Recipe}
    (h : recipes.map (shownRecipe isFullInfo) = recipes'.map (shownRecipe isFullInfo)) :
    printRecipes today isFullInfo recipes = printRecipes today isFullInfo recipes' :=
  listing_eq_of_map_eq (fun _ _ heq => printRecipe_congr heq) h

/-- No list of products looks like a list of recipes. -/
theorem printProducts_ne_printRecipes {products : List Product} {recipes : List Recipe}
    (hproducts : ∀ product ∈ products, PrintableProduct product)
    (hrecipes : ∀ recipe ∈ recipes, PrintableRecipe recipe) :
    printProducts today products ≠ printRecipes today isFullInfo recipes := by
  intro heq
  cases products with
  | nil =>
      cases recipes with
      | nil => cases heq
      | cons recipe recipes => cases isFullInfo <;> cases heq
  | cons product products =>
      cases recipes with
      | nil => cases heq
      | cons recipe recipes =>
          exact stops_printRecipe (hrecipes recipe List.mem_cons_self) _ product
            (hproducts product List.mem_cons_self) _ heq.symm

/-- Full recipes are told from summaries, unless there are none. -/
theorem printRecipes_full_eq_iff {recipes recipes' : List Recipe}
    (h : ∀ recipe ∈ recipes, PrintableRecipe recipe)
    (h' : ∀ recipe ∈ recipes', PrintableRecipe recipe) :
    printRecipes today true recipes = printRecipes today false recipes' ↔
      recipes.map (shownRecipe true) = recipes'.map (shownRecipe false) := by
  cases recipes with
  | nil =>
      cases recipes' with
      | nil => exact ⟨fun _ => rfl, fun _ => rfl⟩
      | cons recipe' recipes' => exact ⟨fun heq => (by cases heq), fun heq => (by cases heq)⟩
  | cons recipe recipes =>
      cases recipes' with
      | nil => exact ⟨fun heq => (by cases heq), fun heq => (by cases heq)⟩
      | cons recipe' recipes' =>
          refine ⟨fun heq => ?_, fun heq => by cases (Prod.mk.inj (List.cons.inj heq).1).2⟩
          have hlines : printRecipe today true recipe ++ recipes.flatMap (printRecipe today true) =
            printRecipe today false recipe' ++ recipes'.flatMap (printRecipe today false) := heq
          rw [printRecipe, printRecipe, List.append_assoc, List.append_assoc] at hlines
          have hrecipe := h recipe List.mem_cons_self
          have hrecipe' := h' recipe' List.mem_cons_self
          cases (tells_recipeName (R := fun _ => True) trivial trivial hrecipe hrecipe' hlines).2

theorem printProducts_eq_iff {products products' : List Product}
    (h : ∀ product ∈ products, PrintableProduct product)
    (h' : ∀ product ∈ products', PrintableProduct product) :
    printProducts today products = printProducts today products' ↔
      products.map shownProduct = products'.map shownProduct := by
  refine ⟨fun heq => ?_, printProducts_congr⟩
  have hend : Stops PrintableProduct (printProduct today) [] :=
    Stops.nil fun product _ heq => by cases heq
  have htexts : printProducts today products ++ [] = printProducts today products' ++ [] := by
    rw [heq]
  exact (tells_printProducts hend hend h h' htexts).1

theorem printRecipes_same_iff {recipes recipes' : List Recipe}
    (h : ∀ recipe ∈ recipes, PrintableRecipe recipe)
    (h' : ∀ recipe ∈ recipes', PrintableRecipe recipe) :
    printRecipes today isFullInfo recipes = printRecipes today isFullInfo recipes' ↔
      recipes.map (shownRecipe isFullInfo) = recipes'.map (shownRecipe isFullInfo) := by
  refine ⟨fun heq => ?_, printRecipes_congr⟩
  have hproduct : Stops PrintableProduct (printProduct today) [] :=
    Stops.nil fun product _ heq => by cases heq
  have hrecipe : Stops PrintableRecipe (printRecipe today isFullInfo) [] :=
    Stops.nil fun recipe _ heq => by cases isFullInfo <;> cases heq
  have htexts : printRecipes today isFullInfo recipes ++ [] =
      printRecipes today isFullInfo recipes' ++ [] := by
    rw [heq]
  exact (tells_printRecipes ⟨hproduct, hrecipe⟩ ⟨hproduct, hrecipe⟩ h h' htexts).1

theorem printRecipes_eq_iff {isFullInfo' : Bool} {recipes recipes' : List Recipe}
    (h : ∀ recipe ∈ recipes, PrintableRecipe recipe)
    (h' : ∀ recipe ∈ recipes', PrintableRecipe recipe) :
    printRecipes today isFullInfo recipes = printRecipes today isFullInfo' recipes' ↔
      recipes.map (shownRecipe isFullInfo) = recipes'.map (shownRecipe isFullInfo') := by
  cases isFullInfo with
  | true =>
      cases isFullInfo' with
      | true => exact printRecipes_same_iff h h'
      | false => exact printRecipes_full_eq_iff h h'
  | false =>
      cases isFullInfo' with
      | true => rw [eq_comm, printRecipes_full_eq_iff h' h, eq_comm]
      | false => exact printRecipes_same_iff h h'

theorem printItems_eq_iff {formats formats' : Formats} {items items' : Items} {isFullInfo' : Bool}
    (h : items.Printable) (h' : items'.Printable) :
    printItems (consoleFormats today formats) items isFullInfo =
        printItems (consoleFormats today formats') items' isFullInfo' ↔
      items.shown isFullInfo = items'.shown isFullInfo' := by
  cases items with
  | products products =>
      cases items' with
      | products products' =>
          rw [Items.shown, Items.shown, Shown.products.injEq]
          exact String.ofList_inj.trans (printProducts_eq_iff h h')
      | recipes recipes =>
          refine ⟨fun heq => ?_, fun heq => by cases heq⟩
          exact absurd (String.ofList_injective heq) (printProducts_ne_printRecipes h h')
  | recipes recipes =>
      cases items' with
      | products products =>
          refine ⟨fun heq => ?_, fun heq => by cases heq⟩
          exact absurd (String.ofList_injective heq).symm (printProducts_ne_printRecipes h' h)
      | recipes recipes' =>
          rw [Items.shown, Items.shown, Shown.recipes.injEq]
          exact String.ofList_inj.trans (printRecipes_eq_iff h h')

end

/-! ## Both kinds of report -/

section

variable (formats : Formats) (jsonDisk yamlDisk : Disk) (items : Items) (args : Args.ArgsOut)

/-- What a report has written, one output after the other or in parallel. -/
inductive Reported : Outputs → Prop where
  | plain : Reported (reportsItems formats jsonDisk yamlDisk items args).2
  | parallel (schedule : List Task) (hperm : schedule.Perm (launched args)) :
      Reported (parallelReportsItems formats jsonDisk yamlDisk schedule items args).2

end

section

variable {formats formats' : Formats} {jsonDisk yamlDisk jsonDisk' yamlDisk' : Disk}
  {items items' : Items} {args args' : Args.ArgsOut} {outputs outputs' : Outputs}

theorem leave_console {path : Path} {written : Option String} :
    (outputs.leave path written).console = outputs.console := by
  cases written <;> rfl

/-- The console keeps the text of its own task, whenever that comes. -/
theorem foldl_console {schedule : List Task}
    (h : outputs.console = some (printItems formats items args.isFullInfo) ∨
      Task.console ∈ schedule) :
    (schedule.foldl (Task.run formats jsonDisk yamlDisk items args) outputs).console =
      some (printItems formats items args.isFullInfo) := by
  induction schedule generalizing outputs with
  | nil => exact h.resolve_right List.not_mem_nil
  | cons task schedule ih =>
      apply ih
      cases task with
      | console => exact Or.inl rfl
      | json => simpa [Task.run, leave_console] using h
      | yaml => simpa [Task.run, leave_console] using h

theorem Reported.console (h : Reported formats jsonDisk yamlDisk items args outputs)
    (hconsole : args.writeConsole = true) :
    outputs.console = some (printItems formats items args.isFullInfo) := by
  cases h with
  | plain =>
      -- The file writers come after the console and leave it as it is.
      simp only [reportsItems_eq, reportItems, writeReports, hconsole, Bool.not_true,
        Bool.false_and, Bool.false_eq_true, if_false, if_true]
      generalize writeItemsJson formats jsonDisk items args.jsonOutPath = json
      obtain ⟨jsonWritten, jsonResult⟩ := json
      cases args.writeJson <;> cases args.writeYaml <;> cases jsonResult <;>
        simp [leave_console, Outputs.print]
  | parallel schedule hperm =>
      have hmem : Task.console ∈ schedule := hperm.mem_iff.mpr (by simp [launched, hconsole])
      have hfold : (schedule.foldl (Task.run formats jsonDisk yamlDisk items args) {}).console =
          some (printItems formats items args.isFullInfo) :=
        foldl_console (Or.inr hmem)
      rw [parallelReportsItems]
      split
      · exact hfold
      · split <;> exact hfold

/-- **Two reports of one day print the same on the console exactly when they show the same.** -/
theorem console_tells_items {today : SysDays}
    (h : Reported (consoleFormats today formats) jsonDisk yamlDisk items args outputs)
    (h' : Reported (consoleFormats today formats') jsonDisk' yamlDisk' items' args' outputs')
    (hconsole : args.writeConsole = true) (hconsole' : args'.writeConsole = true)
    (hitems : items.Printable) (hitems' : items'.Printable) :
    outputs.console = outputs'.console ↔
      items.shown args.isFullInfo = items'.shown args'.isFullInfo := by
  rw [h.console hconsole, h'.console hconsole', Option.some.injEq]
  exact printItems_eq_iff hitems hitems'

end

/-- Fresh milk, and a recipe that takes all of it. -/
def milkOnHand : Product := ⟨"milk", 1, .liter, { expiration := some 20455 }, some 7⟩

def pancakes : Recipe := ⟨"pancakes", [milkOnHand], some 3⟩

example : printRecipe 20450 true pancakes =
    ("Name: pancakes\nIngredients:\nName: milk\nAmount: 1l\nManufacture: not set\n" ++
      "Expiration: 02-01-2026\nFresh: Yes\n------------------------\n").toList := by
  decide +kernel

theorem milkOnHand_printable : PrintableProduct milkOnHand where
  name := by decide
  dimension := by decide
  dates := by
    refine ⟨fun date h => (by cases h), fun date h => ?_⟩
    cases h
    exact ⟨⟨2026, 1, 2⟩, by decide⟩

/-- The plain report of the recipe in full, and the parallel one of the product with the console
last. -/
theorem console_tells_items_pancakes :
    (reportsItems (consoleFormats 20450 nameFormats) {} {} (.recipes [pancakes])
        { twoPaths with isFullInfo := true }).2.console =
      (parallelReportsItems (consoleFormats 20450 nameFormats) {} {} [.yaml, .json, .console]
        (.products [milkOnHand]) twoPaths).2.console ↔
    (Items.recipes [pancakes]).shown true =
      (Items.products [milkOnHand]).shown twoPaths.isFullInfo := by
  have hplain : Reported (consoleFormats 20450 nameFormats) {} {} (.recipes [pancakes])
      { twoPaths with isFullInfo := true } _ := .plain
  have hparallel : Reported (consoleFormats 20450 nameFormats) {} {} (.products [milkOnHand])
      twoPaths _ := .parallel [.yaml, .json, .console] (by decide)
  have hmilk : ∀ product ∈ [milkOnHand], PrintableProduct product := by
    intro product h
    rw [List.mem_singleton.mp h]
    exact milkOnHand_printable
  refine console_tells_items hplain hparallel rfl rfl (fun recipe h => ?_) hmilk
  rw [List.mem_singleton.mp h]
  exact ⟨by decide, hmilk⟩

end RecipesCore.Io
