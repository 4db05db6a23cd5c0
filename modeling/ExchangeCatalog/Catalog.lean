import ExchangeCatalog.Entity.Basic

/-!
# The reference data of a commodity exchange

The catalog lists who trades on the exchange, what is traded, where, in which units and on which
terms, which offers stand, and what has been traded. Each table is an entity of its own; rows refer
to rows of other tables by identifier, and the database alone checks such references.

## Main definitions

* the entities: parties, commodities and their groups, trading halls and their menus, terms of
  trade, `offer` and `report`
* `Catalog.routes` — the path under which each entity is served
-/

namespace ExchangeCatalog.Catalog

private def integer (name : String) : Column := ⟨name, .integer⟩

private def text (name : String) : Column := ⟨name, .text⟩

private def timestamp (name : String) : Column := ⟨name, .timestamp⟩

/-! ### Parties -/

/-- A member of the exchange that trades for its customers. -/
def broker : Entity where
  table := "brokers"
  label := "broker"
  recordName := "Broker"
  columns := [text "description", text "persian_name", integer "spot_id", integer "derivatives_id",
    text "national_id"]
  filterable := ["persian_name", "spot_id", "derivatives_id", "national_id"]

/-- A customer that offers goods. -/
def supplier : Entity where
  table := "suppliers"
  label := "supplier"
  recordName := "Supplier"
  columns := [integer "customer_id", text "description", text "persian_name", text "national_code"]
  filterable := ["customer_id", "persian_name", "national_code"]

/-- A producer of goods. -/
def manufacturer : Entity where
  table := "manufacturers"
  label := "manufacturer"
  recordName := "Manufacturer"
  columns := [text "description", text "persian_name", text "national_id"]
  filterable := ["persian_name", "national_id"]

/-! ### Commodities -/

/-- A kind of goods, possibly below another. -/
def commodity : Entity where
  table := "commodities"
  label := "commodity"
  recordName := "Commodity"
  columns := [text "description", integer "parent_id", text "persian_name", text "symbol"]
  filterable := ["parent_id", "persian_name", "symbol"]

/-- The coarsest grouping of commodities. -/
def mainGroup : Entity where
  table := "main_groups"
  label := "main group"
  recordName := "MainGroup"
  columns := [text "description", text "persian_name"]
  filterable := ["id", "persian_name"]

/-- A group of commodities within a main group. -/
def group : Entity where
  table := "groups"
  label := "group"
  recordName := "Group"
  columns := [text "description", text "persian_name", integer "main_group_id"]
  filterable := ["persian_name", "main_group_id"]

/-- A group of commodities within a group. -/
def subGroup : Entity where
  table := "sub_groups"
  label := "sub group"
  recordName := "SubGroup"
  columns := [text "description", text "persian_name", integer "group_id"]
  filterable := ["persian_name", "group_id"]

/-! ### Trading halls -/

/-- A hall of the exchange. -/
def tradingHall : Entity where
  table := "trading_halls"
  label := "trading hall"
  recordName := "TradingHall"
  columns := [text "description", text "persian_name"]
  filterable := ["id", "persian_name"]

/-- The assignment of a commodity group to a hall. -/
def groupHall : Entity where
  table := "group_halls"
  label := "group hall"
  recordName := "GroupHall"
  columns := [integer "group_id", integer "hall_id"]
  filterable := ["group_id", "hall_id"]

/-- An entry of a hall's menu. -/
def hallMenuGroup : Entity where
  table := "hall_menu_groups"
  label := "hall menu group"
  recordName := "HallMenuGroup"
  columns := [text "description", text "persian_name", integer "trading_hall_id"]
  filterable := ["persian_name", "trading_hall_id"]

/-- An entry below a menu entry. -/
def hallMenuSubGroup : Entity where
  table := "hall_menu_sub_groups"
  label := "hall menu sub group"
  recordName := "HallMenuSubGroup"
  columns := [text "description", text "persian_name", integer "hall_menu_group_id"]
  filterable := ["persian_name", "hall_menu_group_id"]

/-! ### Terms of trade -/

/-- A list of named terms: each row has a description and a display name, and is found by either its
identifier or its name. -/
private def terms (table label recordName : String) : Entity where
  table := table
  label := label
  recordName := recordName
  columns := [text "description", text "persian_name"]
  filterable := ["id", "persian_name"]

/-- A way of buying. -/
def buyMethod : Entity := terms "buy_methods" "buy method" "BuyMethod"

/-- A type of contract. -/
def contractType : Entity := terms "contract_types" "contract type" "ContractType"

/-- A currency. -/
def currencyUnit : Entity := terms "currency_units" "currency unit" "CurrencyUnit"

/-- A place of delivery. -/
def deliveryPlace : Entity := terms "delivery_places" "delivery place" "DeliveryPlace"

/-- A unit of measure. -/
def measureUnit : Entity := terms "measure_units" "measure unit" "MeasureUnit"

/-- A mode of offering. -/
def offerMod : Entity := terms "offer_mods" "offer mod" "OfferMod"

/-- A type of offer. -/
def offerType : Entity := terms "offer_types" "offer type" "OfferType"

/-- A type of packaging. -/
def packagingType : Entity := terms "packaging_types" "packaging type" "PackagingType"

/-- A way of settling. -/
def settlement : Entity := terms "settlements" "settlement" "Settlement"

/-! ### Offers -/

/-- A lot of goods put up for sale, with its terms. -/
def offer : Entity where
  table := "offers"
  label := "offer"
  recordName := "Offer"
  columns := [integer "buy_method_id", integer "broker_id", integer "commodity_id",
    integer "contract_type_id", integer "currency_id", integer "delivery_place_id",
    integer "init_price", text "init_volume", integer "lot_size", integer "manufacturer_id",
    integer "max_init_price", integer "max_inc_offer_vol", integer "max_order_vol",
    integer "max_offer_price", integer "measure_unit_id", integer "min_allocation_vol",
    integer "min_offer_vol", integer "min_init_price", integer "min_order_vol",
    integer "min_offer_price", integer "offer_mode_id", integer "offer_type_id",
    integer "offer_vol", integer "packaging_type_id", integer "permissible_error",
    integer "price_discovery_min_order_vol", integer "prepayment_percent",
    integer "security_type_id", integer "settlement_type_id", integer "supplier_id",
    integer "tick_size", integer "trading_hall_id", integer "weight_factor",
    timestamp "delivery_date", text "description", timestamp "offer_date", text "offer_ring",
    text "offer_symbol", text "security_type_note", text "trade_status"]
  filterable := ["buy_method_id", "broker_id", "commodity_id", "contract_type_id", "currency_id",
    "delivery_place_id", "manufacturer_id", "measure_unit_id", "offer_mode_id", "offer_type_id",
    "packaging_type_id", "security_type_id", "settlement_type_id", "supplier_id", "trading_hall_id",
    "init_price", "offer_vol", "offer_date", "delivery_date", "offer_symbol", "trade_status"]

/-! ### Trades -/

/-- The outcome of a sale. -/
def report : Entity where
  table := "reports"
  label := "report"
  recordName := "Report"
  columns := [integer "commodity_id", integer "contract_type_id", integer "currency_id",
    integer "manufacturer_id", integer "measurement_unit_id", integer "offer_id",
    integer "seller_broker_id", integer "supplier_id", text "demand_volume",
    integer "maximum_price", integer "minimum_price", integer "offer_base_price",
    text "offer_volume", integer "final_weighted_average_price", text "buy_method",
    timestamp "due_date", text "offer_mode", text "offer_symbol", text "offer_type",
    timestamp "trade_date", text "trade_value", text "trade_volume"]
  filterable := ["commodity_id", "contract_type_id", "currency_id", "manufacturer_id",
    "measurement_unit_id", "offer_id", "seller_broker_id", "supplier_id", "maximum_price",
    "minimum_price", "offer_base_price", "final_weighted_average_price", "trade_date", "due_date",
    "offer_symbol"]

/-! ### Routes -/

/-- The path under which each entity is served. -/
def routes : List (String × Entity) :=
  [("/broker", broker), ("/buy-method", buyMethod), ("/commodity", commodity),
    ("/contract-type", contractType), ("/currency-unit", currencyUnit),
    ("/delivery-place", deliveryPlace), ("/menu-group", mainGroup), ("/group", group),
    ("/sub-group", subGroup), ("/group-hall", groupHall), ("/hall-menu-group", hallMenuGroup),
    ("/hall-menu-sub-group", hallMenuSubGroup), ("/trading-hall", tradingHall),
    ("/manufacturers", manufacturer), ("/measure-unit", measureUnit), ("/offer", offer),
    ("/offer-mod", offerMod), ("/offer-type", offerType), ("/packaging-type", packagingType),
    ("/report", report), ("/settlement", settlement), ("/supplier", supplier)]

end ExchangeCatalog.Catalog
